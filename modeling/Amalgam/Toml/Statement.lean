import Amalgam.Toml.Scalar

namespace Amalgam
namespace Toml

/-!
# Statements of a TOML document

A document is a sequence of assignments and headers, one to a line.  This file
reads them from characters.  What they mean together, and which of them
contradict each other, is left to `Toml.Document`; only a table in braces is
put together here, because it is a value.
-/

/-- How deeply lists and tables in braces can be nested. -/
def deepest : Nat := 79

/-- How many parts a dotted key can have. -/
def mostKeyParts : Nat := 79

def dropBlanks (cs : List Char) : List Char :=
  cs.dropWhile fun c => c == ' ' || c == '\t'

/-- The characters after the end of a line: blanks, a comment, and a line feed
unless the text ends. -/
def afterLine? (cs : List Char) : Option (List Char) :=
  let cs := dropBlanks cs
  let cs := match cs with
    | '#' :: rest => rest.dropWhile Quoted.isPlain
    | _ => cs
  match cs with
  | [] => some []
  | '\n' :: rest => some rest
  | '\r' :: '\n' :: rest => some rest
  | _ => none

/-- Drops blanks, line breaks and comments inside a list.  The flag tells
whether a comment is open. -/
def dropGap? : Bool → List Char → Option (List Char)
  | false, [] => some []
  | true, [] => none
  | _, '\n' :: rest => dropGap? false rest
  | _, '\r' :: '\n' :: rest => dropGap? false rest
  | true, c :: rest => if Quoted.isPlain c then dropGap? true rest else none
  | false, c :: rest =>
      if c = ' ' ∨ c = '\t' then dropGap? false rest
      else if c = '#' then dropGap? true rest
      else some (c :: rest)

def isBareKeyChar (c : Char) : Bool :=
  c.isAlphanum || c == '_' || c == '-'

def keyPart? (fuel : Nat) (cs : List Char) : Option (String × List Char) :=
  let bare := cs.takeWhile isBareKeyChar
  if bare.isEmpty then Quoted.line? fuel cs
  else some (String.ofList bare, cs.drop bare.length)

/-- The parts of a key, with dots between and blanks around them. -/
def keyParts? (fuel : Nat) : Nat → List Char → Option (List String × List Char)
  | 0, _ => none
  | parts + 1, cs => do
      let (key, cs) ← keyPart? fuel (dropBlanks cs)
      match dropBlanks cs with
      | '.' :: rest =>
          let (keys, cs) ← keyParts? fuel parts rest
          return (key :: keys, cs)
      | cs => return ([key], cs)

def key? (fuel : Nat) (cs : List Char) : Option (List String × List Char) :=
  keyParts? fuel mostKeyParts cs

def assignment? (fuel : Nat) (value? : List Char → Option (Node × List Char))
    (cs : List Char) : Option ((List String × Node) × List Char) := do
  let (key, cs) ← key? fuel cs
  match cs with
  | '=' :: rest =>
      let (value, cs) ← value? (dropBlanks rest)
      return ((key, value), cs)
  | _ => none

/-- The rest of a list after its bracket or after a comma. -/
def items? (item? : List Char → Option (Node × List Char)) :
    Nat → List Node → List Char → Option (List Node × List Char)
  | 0, _, _ => none
  | fuel + 1, done, cs => do
      match ← dropGap? false cs with
      | ']' :: rest => return (done.reverse, rest)
      | cs =>
          let (item, cs) ← item? cs
          match ← dropGap? false cs with
          | ',' :: rest => items? item? fuel (item :: done) rest
          | ']' :: rest => return ((item :: done).reverse, rest)
          | _ => none

/-- The rest of a table in braces that has at least one more assignment. -/
def assignments? (one? : List Char → Option ((List String × Node) × List Char)) :
    Nat → List (List String × Node) → List Char →
      Option (List (List String × Node) × List Char)
  | 0, _, _ => none
  | fuel + 1, done, cs => do
      let (assignment, cs) ← one? cs
      match dropBlanks cs with
      | ',' :: rest => assignments? one? fuel (assignment :: done) rest
      | '\x7d' :: rest => return ((assignment :: done).reverse, rest)
      | _ => none

/-- A value with at most the given depth of lists and tables in braces. -/
def value? (fuel : Nat) : Nat → List Char → Option (Node × List Char)
  | depth, '[' :: rest =>
      match depth with
      | 0 => none
      | depth + 1 => do
          let (items, cs) ← items? (value? fuel depth) fuel [] rest
          return (.list items, cs)
  | depth, '\x7b' :: rest =>
      match depth, dropBlanks rest with
      | 0, _ => none
      | _ + 1, '\x7d' :: rest => some (.closed [], rest)
      | depth + 1, cs => do
          let (pairs, cs) ← assignments? (assignment? fuel (value? fuel depth)) fuel [] cs
          let table ← Table.ofAssignments pairs
          return (.closed table.fields, cs)
  | _, cs =>
      if cs.head? == some '"' || cs.head? == some '\'' then do
        let (content, cs) ← Quoted.any? fuel cs
        return (.text content, cs)
      else Scalar.scan? cs

/-- A line of a document that says something. -/
inductive Statement where
  | assign (key : List String) (value : Node)
  /-- A header in single brackets. -/
  | header (key : List String)
  /-- A header in double brackets, which adds a table each time. -/
  | repeatedHeader (key : List String)

/-- The statement that a line begins with, and what follows it. -/
def statement? (fuel : Nat) : List Char → Option (Statement × List Char)
  | '[' :: '[' :: rest => do
      let (key, cs) ← key? fuel rest
      match cs with
      | ']' :: ']' :: rest => return (.repeatedHeader key, rest)
      | _ => none
  | '[' :: rest => do
      let (key, cs) ← key? fuel rest
      match cs with
      | ']' :: rest => return (.header key, rest)
      | _ => none
  | cs => do
      let ((key, value), cs) ← assignment? fuel (value? fuel deepest) cs
      return (.assign key value, cs)

/-- The statements of a document, read line by line. -/
def statements? (fuel : Nat) : Nat → List Statement → List Char → Option (List Statement)
  | 0, _, _ => none
  | _, done, [] => some done.reverse
  | lines + 1, done, cs =>
      match afterLine? cs with
      | some rest => statements? fuel lines done rest
      | none => do
          let (statement, cs) ← statement? fuel (dropBlanks cs)
          statements? fuel lines (statement :: done) (← afterLine? cs)

end Toml
end Amalgam
