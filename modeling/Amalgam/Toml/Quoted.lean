namespace Amalgam
namespace Toml
namespace Quoted

/-!
# Quoted text in TOML

The four kinds of quoted text: basic and literal, on one line and over several.
Each scanner is given the characters after the opening quotes and returns the
text with the characters after the closing ones.  A carriage return can only
stand before a line feed, and then the text holds the line feed alone.
-/

/-- A character beyond ASCII, or a printable one, or a tab. -/
def isPlain (c : Char) : Bool :=
  c == '\t' || (0x20 ≤ c.toNat && c.toNat ≤ 0x7E) || 0x80 ≤ c.toNat

def hexDigit? (c : Char) : Option Nat :=
  if c.isDigit then some (c.toNat - 48)
  else if 'a' ≤ c && c ≤ 'f' then some (c.toNat - 87)
  else if 'A' ≤ c && c ≤ 'F' then some (c.toNat - 55)
  else none

/-- A character given by a number of hexadecimal digits. -/
def codePoint? (digits : Nat) (cs : List Char) : Option (Char × List Char) := do
  let values ← (cs.take digits).mapM hexDigit?
  let n := values.foldl (fun acc d => 16 * acc + d) 0
  -- Surrogates and numbers past the last code point are not characters.
  if values.length = digits ∧ n.isValidChar then some (Char.ofNat n, cs.drop digits)
  else none

/-- The character of an escape sequence, after its backslash. -/
def escape? : List Char → Option (Char × List Char)
  | 'b' :: rest => some ('\x08', rest)
  | 't' :: rest => some ('\t', rest)
  | 'n' :: rest => some ('\n', rest)
  | 'f' :: rest => some ('\x0c', rest)
  | 'r' :: rest => some ('\r', rest)
  | '"' :: rest => some ('"', rest)
  | '\\' :: rest => some ('\\', rest)
  | 'u' :: rest => codePoint? 4 rest
  | 'U' :: rest => codePoint? 8 rest
  | _ => none

def finish (reversed : List Char) : String :=
  String.ofList reversed.reverse

def basicLine : Nat → List Char → List Char → Option (String × List Char)
  | 0, _, _ => none
  | _, _, [] => none
  | fuel + 1, done, c :: rest =>
      if c = '"' then some (finish done, rest)
      else if c = '\\' then do
        let (c, rest) ← escape? rest
        basicLine fuel (c :: done) rest
      else if isPlain c then basicLine fuel (c :: done) rest
      else none

def literalLine : List Char → List Char → Option (String × List Char)
  | _, [] => none
  | done, c :: rest =>
      if c = '\'' then some (finish done, rest)
      else if isPlain c then literalLine (c :: done) rest
      else none

/-- The characters after a first line break, if there is one. -/
def dropBreak : List Char → List Char
  | '\n' :: rest => rest
  | '\r' :: '\n' :: rest => rest
  | cs => cs

def dropGap : List Char → List Char
  | ' ' :: rest => dropGap rest
  | '\t' :: rest => dropGap rest
  | '\n' :: rest => dropGap rest
  | '\r' :: '\n' :: rest => dropGap rest
  | cs => cs

/-- The characters after a backslash at the end of a line: the gap up to the
next visible character is left out of the text. -/
def joined? (cs : List Char) : Option (List Char) :=
  match cs.dropWhile fun c => c == ' ' || c == '\t' with
  | '\n' :: rest => some (dropGap rest)
  | '\r' :: '\n' :: rest => some (dropGap rest)
  | _ => none

/-- How a run of quotes ends text over several lines: three close it, and up to
two before them belong to the text. -/
def closing? (quote : Char) (done cs : List Char) : Option (String × List Char) :=
  let run := (cs.takeWhile (· == quote)).length
  if run < 3 then none
  else
    let extra := min run 5 - 3
    some (finish (List.replicate extra quote ++ done), cs.drop (extra + 3))

def basicLines : Nat → List Char → List Char → Option (String × List Char)
  | 0, _, _ => none
  | fuel + 1, done, cs =>
      match cs with
      | [] => none
      | '"' :: rest =>
          match closing? '"' done cs with
          | some result => some result
          | none => basicLines fuel ('"' :: done) rest
      | '\\' :: rest =>
          match joined? rest with
          | some rest => basicLines fuel done rest
          | none => do
              let (c, rest) ← escape? rest
              basicLines fuel (c :: done) rest
      | '\n' :: rest => basicLines fuel ('\n' :: done) rest
      | '\r' :: '\n' :: rest => basicLines fuel ('\n' :: done) rest
      | c :: rest => if isPlain c then basicLines fuel (c :: done) rest else none

def literalLines : List Char → List Char → Option (String × List Char)
  | _, [] => none
  | done, '\'' :: rest =>
      match closing? '\'' done ('\'' :: rest) with
      | some result => some result
      | none => literalLines ('\'' :: done) rest
  | done, '\n' :: rest => literalLines ('\n' :: done) rest
  | done, '\r' :: '\n' :: rest => literalLines ('\n' :: done) rest
  | done, c :: rest => if isPlain c then literalLines (c :: done) rest else none

/-- Quoted text on one line, its opening quote included. -/
def line? (fuel : Nat) : List Char → Option (String × List Char)
  | '"' :: rest => basicLine fuel [] rest
  | '\'' :: rest => literalLine [] rest
  | _ => none

/-- Quoted text of any kind, its opening quotes included. -/
def any? (fuel : Nat) : List Char → Option (String × List Char)
  | '"' :: '"' :: '"' :: rest => basicLines fuel [] (dropBreak rest)
  | '\'' :: '\'' :: '\'' :: rest => literalLines [] (dropBreak rest)
  | cs => line? fuel cs

end Quoted
end Toml
end Amalgam
