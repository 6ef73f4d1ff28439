import Amalgam.Toml.Quoted

namespace Amalgam
namespace Json

/-!
# JSON texts

What it takes for a text to be the JSON form of a value.  A value has one sequence of tokens:
there is no choice in where its brackets, colons and commas go.  A text may put blanks around
the tokens, and a character in a string can be written in several ways.

Numbers are kept as they are written.  The order of the members of an object counts here, and
a key may occur more than once.
-/

/-! ## Values and their tokens -/

/-- A value without parts. -/
inductive Scalar where
  | null
  | bool (value : Bool)
  | number (literal : String)
  | text (content : String)
deriving DecidableEq

inductive Value where
  | scalar (content : Scalar)
  | list (items : List Value)
  | object (members : List (String × Value))

inductive Token where
  | mark (c : Char)
  | scalar (content : Scalar)
deriving DecidableEq

/-- The value of a string. -/
abbrev Value.text (content : String) : Value :=
  .scalar (.text content)

/-- Token sequences with a comma between any two. -/
def separated : List (List Token) → List Token :=
  [Token.mark ','].intercalate

/-- The tokens of a key, with the colon behind it. -/
def keyTokens (key : String) : List Token :=
  [.scalar (.text key), .mark ':']

def Value.tokens : Value → List Token
  | .scalar content => [.scalar content]
  | .list items => .mark '[' :: separated (items.map tokens) ++ [.mark ']']
  | .object members =>
      .mark '\x7b' :: separated (members.map fun m => keyTokens m.1 ++ m.2.tokens) ++
        [.mark '\x7d']
decreasing_by
  · rename_i hmem
    have hsize := List.sizeOf_lt_of_mem hmem
    rw [Value.list.sizeOf_spec]
    omega
  · rename_i hmem
    obtain ⟨key, v⟩ := m
    have hsize := List.sizeOf_lt_of_mem hmem
    rw [Prod.mk.sizeOf_spec] at hsize
    rw [Value.object.sizeOf_spec]
    show sizeOf v < _
    omega

/-! ## Strings -/

/-- The number that four hexadecimal digits spell. -/
def unitOf? : List Char → Option Nat
  | [a, b, c, d] => do
      let high := 0x10 * (← Toml.Quoted.hexDigit? a) + (← Toml.Quoted.hexDigit? b)
      let low := 0x10 * (← Toml.Quoted.hexDigit? c) + (← Toml.Quoted.hexDigit? d)
      return 0x100 * high + low
  | _ => none

/-- The character that one letter behind a backslash stands for. -/
def shortEscape? : Char → Option Char
  | '"' => some '"'
  | '\\' => some '\\'
  | '/' => some '/'
  | 'b' => some '\x08'
  | 'f' => some '\x0c'
  | 'n' => some '\n'
  | 'r' => some '\r'
  | 't' => some '\t'
  | _ => none

/-- The character of a high and a low surrogate. -/
def pairedChar? (high low : Nat) : Option Char :=
  if 0xD800 ≤ high ∧ high < 0xDC00 ∧ 0xDC00 ≤ low ∧ low < 0xE000 then
    some (Char.ofNat (0x10000 + 0x400 * (high - 0xD800) + (low - 0xDC00)))
  else none

/-- The ways to write a character in a string.  A number that is only half of a character
stands for nothing by itself. -/
inductive Spells : Char → List Char → Prop
  | plain {c : Char} (hcontrol : 0x20 ≤ c.toNat) (hquote : c ≠ '"') (hslash : c ≠ '\\') :
      Spells c [c]
  | short {letter c : Char} (h : shortEscape? letter = some c) : Spells c ['\\', letter]
  | unit {digits : List Char} {n : Nat} (h : unitOf? digits = some n) (hn : n.isValidChar) :
      Spells (Char.ofNat n) ('\\' :: 'u' :: digits)
  | pair {first second : List Char} {high low : Nat} {c : Char}
      (hhigh : unitOf? first = some high) (hlow : unitOf? second = some low)
      (hc : pairedChar? high low = some c) :
      Spells c ('\\' :: 'u' :: (first ++ '\\' :: 'u' :: second))

inductive SpellsAll : List Char → List Char → Prop
  | nil : SpellsAll [] []
  | cons {c : Char} {cs piece rest : List Char} (hpiece : Spells c piece)
      (hrest : SpellsAll cs rest) : SpellsAll (c :: cs) (piece ++ rest)

/-! ## Numbers -/

/-- What follows the digits in front, of which there has to be one. -/
def afterDigits? (cs : List Char) : Option (List Char) :=
  if (cs.takeWhile Char.isDigit).isEmpty then none else some (cs.dropWhile Char.isDigit)

/-- What follows an integer.  A zero in front is an integer by itself. -/
def afterInteger? : List Char → Option (List Char)
  | '0' :: cs => some cs
  | cs => afterDigits? cs

def afterFraction? : List Char → Option (List Char)
  | '.' :: cs => afterDigits? cs
  | cs => some cs

def dropSign : List Char → List Char
  | '+' :: cs => cs
  | '-' :: cs => cs
  | cs => cs

def afterExponent? : List Char → Option (List Char)
  | 'e' :: cs => afterDigits? (dropSign cs)
  | 'E' :: cs => afterDigits? (dropSign cs)
  | cs => some cs

def dropMinus : List Char → List Char
  | '-' :: cs => cs
  | cs => cs

/-- Whether a text is a number: an integer, then possibly a fraction and an exponent. -/
def isNumber (cs : List Char) : Bool :=
  ((afterInteger? (dropMinus cs)).bind afterFraction?).bind afterExponent? == some []

/-- The characters that numbers are made of. -/
def isNumberChar (c : Char) : Bool :=
  c.isDigit || ['-', '+', '.', 'e', 'E'].contains c

/-! ## Lexemes -/

def isBlank (c : Char) : Bool :=
  [' ', '\t', '\n', '\r'].contains c

def marks : List Char :=
  ['[', ']', '\x7b', '\x7d', ':', ',']

/-- The scalars that are written as a word. -/
def words : List (List Char × Scalar) :=
  [("null".toList, .null), ("true".toList, .bool true), ("false".toList, .bool false)]

/-- The ways to write a token. -/
inductive IsLexeme : Token → List Char → Prop
  | mark {c : Char} (h : c ∈ marks) : IsLexeme (.mark c) [c]
  | word {entry : List Char × Scalar} (h : entry ∈ words) :
      IsLexeme (.scalar entry.2) entry.1
  | number {literal : String} (hchars : ∀ c ∈ literal.toList, isNumberChar c = true)
      (h : isNumber literal.toList = true) :
      IsLexeme (.scalar (.number literal)) literal.toList
  | text {content : String} {body : List Char} (h : SpellsAll content.toList body) :
      IsLexeme (.scalar (.text content)) ('"' :: body ++ ['"'])

/-- A token may end where a text goes on like this.  A number takes all that could belong to
it. -/
def Token.EndsBefore : Token → List Char → Prop
  | .scalar (.number _), rest => ∀ c ∈ rest.head?, isNumberChar c = false
  | _, _ => True

/-- A text consists of tokens and blanks. -/
inductive Lexes : List Char → List Token → Prop
  | nil : Lexes [] []
  | blank {c : Char} {cs : List Char} {tokens : List Token} (hc : isBlank c = true)
      (h : Lexes cs tokens) : Lexes (c :: cs) tokens
  | token {t : Token} {lexeme cs : List Char} {tokens : List Token} (ht : IsLexeme t lexeme)
      (hend : t.EndsBefore cs) (h : Lexes cs tokens) : Lexes (lexeme ++ cs) (t :: tokens)

/-- A text is a JSON form of a value. -/
def IsText (text : String) (v : Value) : Prop :=
  Lexes text.toList v.tokens

end Json
end Amalgam
