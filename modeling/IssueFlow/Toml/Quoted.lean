import IssueFlow.Text.Scan
import IssueFlow.Toml.Trivia

/-!
# Quoted texts

The four kinds of TOML strings. Basic strings have escapes and stand between double quotes, literal
strings have none and stand between single quotes; three quotes at either end let a string run over
several lines. A string of several lines may end with one or two quotes of its own, drops a line end
right after its opening, and reads every line end as a line feed.
-/

namespace IssueFlow.Toml

open IssueFlow.Text

/-- The quote of basic strings. -/
def doubleQuote : Char := '\x22'

/-- The quote of literal strings. -/
def singleQuote : Char := '\x27'

/-- The character that a backslash and the given character stand for. -/
def escaped? (c : Char) : Option Char :=
  if c = 'b' then some '\x08'
  else if c = 't' then some '\t'
  else if c = 'n' then some '\n'
  else if c = 'f' then some '\x0c'
  else if c = 'r' then some '\r'
  else if c = doubleQuote ∨ c = '\\' then some c
  else none

def hexValue? (c : Char) : Option Nat :=
  if c.isDigit then some (c.toNat - 48)
  else if 'a' ≤ c ∧ c ≤ 'f' then some (c.toNat - 87)
  else if 'A' ≤ c ∧ c ≤ 'F' then some (c.toNat - 55)
  else none

/-- The character with the given code point, if there is one. -/
def codePoint? (n : Nat) : Option Char :=
  if n.isValidChar then some (Char.ofNat n) else none

/-- Puts a character in front of what was read. -/
def pushFront (c : Char) : Option (List Char × List Char) → Option (List Char × List Char) :=
  Option.map fun (text, rest) => (c :: text, rest)

/-- The quotes of its own that a string of several lines ends with, and the text after it. -/
def closing (quote : Char) (cs : List Char) : List Char × List Char :=
  let own := (cs.take 2).takeWhile (· = quote)
  (own, cs.drop own.length)

/-- The text after two quotes, if it starts with them. -/
def twoMore? (quote : Char) : List Char → Option (List Char)
  | c :: d :: cs => if c = quote ∧ d = quote then some cs else none
  | _ => none

/-- What a basic string is reading. -/
inductive BasicState where
  | content
  /-- Behind a backslash. -/
  | escape
  /-- Hexadecimal digits of a code point: how many are left, and the number read so far. -/
  | digits (left value : Nat)
  /-- Behind a backslash, the blanks in front of a line end. -/
  | beforeBreak
  /-- Behind a backslash and a line end, the blanks and line ends that do not count. -/
  | afterBreak

/-- The rest of a basic string after its opening; `lines` tells whether it may have several
lines. -/
def basicBody (lines : Bool) : BasicState → Reader (List Char)
  | _, [] => none
  | .digits left value, c :: cs =>
    (hexValue? c).bind fun digit =>
      let value := 16 * value + digit
      if left = 0 then (codePoint? value).bind fun c => pushFront c (basicBody lines .content cs)
      else basicBody lines (.digits (left - 1) value) cs
  | .escape, c :: cs =>
    if c = 'u' then basicBody lines (.digits 3 0) cs
    else if c = 'U' then basicBody lines (.digits 7 0) cs
    else if lines ∧ isBlank c then basicBody lines .beforeBreak cs
    else if lines ∧ c = '\n' then basicBody lines .afterBreak cs
    else if lines ∧ c = '\r' then
      match cs with
      | '\n' :: cs => basicBody lines .afterBreak cs
      | _ => none
    else (escaped? c).bind fun c => pushFront c (basicBody lines .content cs)
  | .beforeBreak, '\n' :: cs => basicBody lines .afterBreak cs
  | .beforeBreak, '\r' :: '\n' :: cs => basicBody lines .afterBreak cs
  | .beforeBreak, c :: cs => if isBlank c then basicBody lines .beforeBreak cs else none
  | .afterBreak, '\n' :: cs => basicBody lines .afterBreak cs
  | .afterBreak, '\r' :: '\n' :: cs => basicBody lines .afterBreak cs
  | .content, '\n' :: cs =>
    if lines then pushFront '\n' (basicBody lines .content cs) else none
  | .content, '\r' :: '\n' :: cs =>
    if lines then pushFront '\n' (basicBody lines .content cs) else none
  | state, c :: cs =>
    if c = doubleQuote then
      if lines then
        match twoMore? doubleQuote cs with
        | some rest => some (closing doubleQuote rest)
        | none => pushFront c (basicBody lines .content cs)
      else some ([], cs)
    else if c = '\\' then basicBody lines .escape cs
    else
      match state with
      | .afterBreak =>
        if isBlank c then basicBody lines .afterBreak cs
        else if isPlain c then pushFront c (basicBody lines .content cs)
        else none
      | _ => if isPlain c then pushFront c (basicBody lines .content cs) else none

/-- The rest of a literal string after its opening; `lines` tells whether it may have several
lines. -/
def literalBody (lines : Bool) : Reader (List Char)
  | [] => none
  | '\n' :: cs => if lines then pushFront '\n' (literalBody lines cs) else none
  | '\r' :: '\n' :: cs => if lines then pushFront '\n' (literalBody lines cs) else none
  | c :: cs =>
    if c = singleQuote then
      if lines then
        match twoMore? singleQuote cs with
        | some rest => some (closing singleQuote rest)
        | none => pushFront c (literalBody lines cs)
      else some ([], cs)
    else if isPlain c then pushFront c (literalBody lines cs)
    else none

/-- A string of one line. -/
def lineString : Reader String
  | [] => none
  | c :: cs =>
    (if c = doubleQuote then basicBody false .content cs
      else if c = singleQuote then literalBody false cs
      else none).map fun (text, rest) => (String.ofList text, rest)

/-- A string of any kind. -/
def anyString : Reader String
  | [] => none
  | c :: cs =>
    match twoMore? c cs with
    | none => lineString (c :: cs)
    | some rest =>
      let body := (lineBreak? rest).getD rest
      (if c = doubleQuote then basicBody true .content body
        else if c = singleQuote then literalBody true body
        else none).map fun (text, rest) => (String.ofList text, rest)

end IssueFlow.Toml
