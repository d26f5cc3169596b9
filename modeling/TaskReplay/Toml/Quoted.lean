import TaskReplay.Text.Digits
import TaskReplay.Toml.Basic

/-!
Quoted text.

What this file fixes:
* a basic string has escapes, a literal string has none; both stay on one line;
* a long string runs over lines and ends at three quotes; up to two more quotes in front of those
  belong to it, as does no line break right after its beginning;
* every line break in a long string counts as one line feed, and a backslash at the end of a line
  takes away all blanks and line breaks up to the next other character.

Each reader starts behind the opening quotes and gives the text with what follows the closing ones.
-/

namespace TaskReplay.Toml.Quoted

/-! ## 1. Escapes -/

/-- What the character after a backslash stands for. -/
def escaped? : Char → Option Char
  | '"' => some '"'
  | '\\' => some '\\'
  | 'b' => some '\x08'
  | 'f' => some '\x0c'
  | 'n' => some '\n'
  | 'r' => some '\r'
  | 't' => some '\t'
  | _ => none

/-- The character whose number hexadecimal digits write. -/
def scalar? (digits : List Char) : Option Char := do
  let n ← Text.value? 16 digits
  if n.isValidChar then some (Char.ofNat n) else none

/-- The text of characters in reverse. -/
def close (done : List Char) (rest : List Char) : Option (String × List Char) :=
  some (String.ofList done.reverse, rest)

/-! ## 2. On one line -/

/-- A literal string. -/
def literal? (done : List Char) : List Char → Option (String × List Char)
  | [] => none
  | '\'' :: rest => close done rest
  | c :: rest => if isText c then literal? (c :: done) rest else none

/-- A basic string. -/
def basic? (done : List Char) : List Char → Option (String × List Char)
  | [] => none
  | '"' :: rest => close done rest
  | '\\' :: 'u' :: a :: b :: c :: d :: rest =>
    match scalar? [a, b, c, d] with
    | some x => basic? (x :: done) rest
    | none => none
  | '\\' :: 'U' :: a :: b :: c :: d :: e :: f :: g :: h :: rest =>
    match scalar? [a, b, c, d, e, f, g, h] with
    | some x => basic? (x :: done) rest
    | none => none
  | '\\' :: c :: rest =>
    match escaped? c with
    | some x => basic? (x :: done) rest
    | none => none
  | c :: rest => if isText c then basic? (c :: done) rest else none

/-! ## 3. Over several lines -/

/-- The text before a line break right at the beginning is empty. -/
def afterBreak : List Char → List Char
  | '\n' :: rest => rest
  | '\r' :: '\n' :: rest => rest
  | cs => cs

/-- What three quotes do in a long string: up to two more belong to the text. -/
def closeLong (quote : Char) (done rest : List Char) : Option (String × List Char) :=
  let more := (rest.takeWhile (· == quote)).length
  if more ≤ 2 then close (List.replicate more quote ++ done) (rest.drop more) else none

/-- A literal string over several lines. -/
def longLiteral? (done : List Char) : List Char → Option (String × List Char)
  | [] => none
  | '\'' :: '\'' :: '\'' :: rest => closeLong '\'' done rest
  | '\r' :: '\n' :: rest => longLiteral? ('\n' :: done) rest
  | c :: rest => if isText c || c == '\n' then longLiteral? (c :: done) rest else none

/-- Whether nothing but blanks comes before the end of the line. -/
def endsLine (cs : List Char) : Bool :=
  match skipGaps cs with
  | '\n' :: _ => true
  | '\r' :: '\n' :: _ => true
  | _ => false

/-- A basic string over several lines; `skipping` tells that blanks and line breaks are taken
away. -/
def longBasic? (skipping : Bool) (done : List Char) : List Char → Option (String × List Char)
  | [] => none
  | '"' :: '"' :: '"' :: rest => closeLong '"' done rest
  | '\r' :: '\n' :: rest =>
    if skipping then longBasic? true done rest else longBasic? false ('\n' :: done) rest
  | '\\' :: 'u' :: a :: b :: c :: d :: rest =>
    match scalar? [a, b, c, d] with
    | some x => longBasic? false (x :: done) rest
    | none => none
  | '\\' :: 'U' :: a :: b :: c :: d :: e :: f :: g :: h :: rest =>
    match scalar? [a, b, c, d, e, f, g, h] with
    | some x => longBasic? false (x :: done) rest
    | none => none
  | '\\' :: c :: rest =>
    if endsLine (c :: rest) then longBasic? true done (c :: rest)
    else match escaped? c with
      | some x => longBasic? false (x :: done) rest
      | none => none
  | c :: rest =>
    if skipping && (isGap c || c == '\n') then longBasic? true done rest
    else if isText c || c == '\n' then longBasic? false (c :: done) rest
    else none

/-! ## 4. Any string -/

/-- A quoted text of any kind; this reader starts at the opening quote. -/
def string? : List Char → Option (String × List Char)
  | '"' :: '"' :: '"' :: rest => longBasic? false [] (afterBreak rest)
  | '"' :: rest => basic? [] rest
  | '\'' :: '\'' :: '\'' :: rest => longLiteral? [] (afterBreak rest)
  | '\'' :: rest => literal? [] rest
  | _ => none

end TaskReplay.Toml.Quoted
