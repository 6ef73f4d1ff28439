import Amalgam.Include
import Amalgam.Proofs.Json.Assembly
import Mathlib.Tactic.SplitIfs

namespace Amalgam
namespace Json

/-!
# Decoding JSON texts

A text is cut into tokens, which are put together to a value.  The decoder accepts the JSON
texts and no others.  So a text is the JSON form of one value only, and any other decoder of
JSON has to find the same one.

Each reader takes what it looks for from the front of a text.  It is stated as an equivalence:
what it finds, and what it leaves behind it.
-/

/-! ## Strings -/

/-- Four hexadecimal digits. -/
def unit? (cs : List Char) : Option (Nat × List Char) :=
  (unitOf? (cs.take 4)).map fun n => (n, cs.drop 4)

/-- The second half of a character whose first half is a number of its own. -/
def lowHalf? (high : Nat) : List Char → Option (Char × List Char)
  | '\\' :: 'u' :: cs => do
      let (low, rest) ← unit? cs
      let c ← pairedChar? high low
      return (c, rest)
  | _ => none

/-- A character that is given by its number, or by the numbers of its halves. -/
def numbered? (cs : List Char) : Option (Char × List Char) := do
  let (n, rest) ← unit? cs
  if n.isValidChar then return (Char.ofNat n, rest)
  else lowHalf? n rest

/-- A character behind its backslash. -/
def escape? : List Char → Option (Char × List Char)
  | [] => none
  | letter :: cs =>
      if letter = 'u' then numbered? cs
      else (shortEscape? letter).map fun c => (c, cs)

/-- A character of a string. -/
def char? : List Char → Option (Char × List Char)
  | [] => none
  | c :: cs =>
      if c = '\\' then escape? cs
      else if 0x20 ≤ c.toNat ∧ c ≠ '"' then some (c, cs)
      else none

/-- The characters of a string up to its closing quote. -/
def body? (cs : List Char) : Option (List Char × List Char) :=
  match cs with
  | [] => none
  | c :: rest =>
      if c = '"' then some ([], rest)
      else match char? (c :: rest) with
        | none => none
        | some (d, behind) =>
            if behind.length ≤ rest.length then
              (body? behind).map fun found => (d :: found.1, found.2)
            else none
termination_by cs.length

section Strings

variable {cs rest : List Char} {c : Char}

theorem length_of_unitOf? {digits : List Char} {n : Nat} (h : unitOf? digits = some n) :
    digits.length = 4 := by
  unfold unitOf? at h
  split at h
  · rfl
  · cases h

theorem unit?_eq_some_iff {n : Nat} :
    unit? cs = some (n, rest) ↔ ∃ digits, cs = digits ++ rest ∧ unitOf? digits = some n := by
  rw [unit?, Option.map_eq_some_iff]
  constructor
  · rintro ⟨_, hdigits, heq⟩
    cases heq
    exact ⟨cs.take 4, (List.take_append_drop 4 cs).symm, hdigits⟩
  · rintro ⟨digits, rfl, hdigits⟩
    have hlength := length_of_unitOf? hdigits
    refine ⟨n, ?_, ?_⟩
    · rwa [List.take_left' hlength]
    · rw [List.drop_left' hlength]

theorem not_isValidChar_of_pairedChar? {high low : Nat} (h : pairedChar? high low = some c) :
    ¬ high.isValidChar := by
  unfold pairedChar? at h
  split at h
  · rename_i hrange
    unfold Nat.isValidChar
    omega
  · cases h

theorem lowHalf?_eq_some_iff {high : Nat} :
    lowHalf? high cs = some (c, rest) ↔
      ∃ digits low, cs = '\\' :: 'u' :: digits ++ rest ∧ unitOf? digits = some low ∧
        pairedChar? high low = some c := by
  constructor
  · intro h
    unfold lowHalf? at h
    split at h
    · obtain ⟨⟨low, behind⟩, hunit, h⟩ := Option.bind_eq_some_iff.1 h
      obtain ⟨d, hpaired, h⟩ := Option.bind_eq_some_iff.1 h
      cases h
      obtain ⟨digits, rfl, hdigits⟩ := unit?_eq_some_iff.1 hunit
      exact ⟨digits, low, rfl, hdigits, hpaired⟩
    · cases h
  · rintro ⟨digits, low, rfl, hdigits, hpaired⟩
    have hunit : unit? (digits ++ rest) = some (low, rest) :=
      unit?_eq_some_iff.2 ⟨digits, rfl, hdigits⟩
    show (unit? (digits ++ rest)).bind _ = _
    rw [hunit, Option.bind_some]
    show (pairedChar? high low).bind _ = _
    rw [hpaired]
    rfl

theorem numbered?_of_unit? {n : Nat} (h : unit? cs = some (n, rest)) :
    numbered? cs =
      if n.isValidChar then some (Char.ofNat n, rest) else lowHalf? n rest := by
  rw [numbered?, h]
  rfl

theorem numbered?_eq_some_iff :
    numbered? cs = some (c, rest) ↔
      ∃ piece, cs = piece ++ rest ∧ Spells c ('\\' :: 'u' :: piece) := by
  constructor
  · intro h
    obtain ⟨⟨n, behind⟩, hunit, -⟩ := Option.bind_eq_some_iff.1 h
    rw [numbered?_of_unit? hunit] at h
    obtain ⟨digits, rfl, hdigits⟩ := unit?_eq_some_iff.1 hunit
    split at h
    · rename_i hvalid
      cases h
      exact ⟨digits, rfl, .unit hdigits hvalid⟩
    · obtain ⟨second, low, rfl, hsecond, hpaired⟩ := lowHalf?_eq_some_iff.1 h
      exact ⟨digits ++ '\\' :: 'u' :: second, by simp, .pair hdigits hsecond hpaired⟩
  · rintro ⟨piece, rfl, hpiece⟩
    generalize hwhole : '\\' :: 'u' :: piece = whole at hpiece
    cases hpiece with
    | plain => cases hwhole
    | short hshort =>
        cases hwhole
        cases hshort
    | unit hdigits hvalid =>
        cases hwhole
        rw [numbered?_of_unit? (unit?_eq_some_iff.2 ⟨piece, rfl, hdigits⟩), if_pos hvalid]
    | @pair first second high low _ hhigh hlow hpaired =>
        -- Half of a character is no character, so the first number is not taken for itself.
        cases hwhole
        rw [numbered?_of_unit? (unit?_eq_some_iff.2 ⟨first, List.append_assoc _ _ _, hhigh⟩),
          if_neg (not_isValidChar_of_pairedChar? hpaired)]
        exact lowHalf?_eq_some_iff.2 ⟨second, low, rfl, hlow, hpaired⟩

theorem escape?_eq_some_iff :
    escape? cs = some (c, rest) ↔ ∃ piece, cs = piece ++ rest ∧ Spells c ('\\' :: piece) := by
  constructor
  · intro h
    unfold escape? at h
    split at h
    · cases h
    · rename_i letter behind
      split at h
      · rename_i hletter
        obtain ⟨piece, rfl, hpiece⟩ := numbered?_eq_some_iff.1 h
        exact ⟨'u' :: piece, by rw [hletter]; rfl, hpiece⟩
      · obtain ⟨_, hshort, heq⟩ := Option.map_eq_some_iff.1 h
        cases heq
        exact ⟨[letter], rfl, .short hshort⟩
  · rintro ⟨piece, rfl, hpiece⟩
    by_cases hnumbered : ∃ tail, piece = 'u' :: tail
    · obtain ⟨tail, rfl⟩ := hnumbered
      exact numbered?_eq_some_iff.2 ⟨tail, rfl, hpiece⟩
    · generalize hwhole : '\\' :: piece = whole at hpiece
      cases hpiece with
      | plain hcontrol hquote hslash =>
          cases hwhole
          contradiction
      | @short letter _ hshort =>
          cases hwhole
          have hletter : letter ≠ 'u' := fun heq => hnumbered ⟨[], by rw [heq]⟩
          rw [List.singleton_append, escape?, if_neg hletter, hshort]
          rfl
      | unit =>
          cases hwhole
          exact absurd ⟨_, rfl⟩ hnumbered
      | pair =>
          cases hwhole
          exact absurd ⟨_, rfl⟩ hnumbered

theorem char?_eq_some_iff :
    char? cs = some (c, rest) ↔ ∃ piece, cs = piece ++ rest ∧ Spells c piece := by
  constructor
  · intro h
    unfold char? at h
    split at h
    · cases h
    · split at h
      · rename_i hslash
        subst hslash
        obtain ⟨piece, rfl, hpiece⟩ := escape?_eq_some_iff.1 h
        exact ⟨'\\' :: piece, rfl, hpiece⟩
      · split at h
        · rename_i hslash hplain
          cases h
          exact ⟨[c], rfl, .plain hplain.1 hplain.2 hslash⟩
        · cases h
  · rintro ⟨piece, rfl, hpiece⟩
    by_cases hslash : ∃ tail, piece = '\\' :: tail
    · obtain ⟨tail, rfl⟩ := hslash
      rw [List.cons_append, char?, if_pos rfl]
      exact escape?_eq_some_iff.2 ⟨tail, rfl, hpiece⟩
    · cases hpiece with
      | plain hcontrol hquote hne =>
          rw [List.singleton_append, char?, if_neg hne, if_pos ⟨hcontrol, hquote⟩]
      | short => exact absurd ⟨_, rfl⟩ hslash
      | unit => exact absurd ⟨_, rfl⟩ hslash
      | pair => exact absurd ⟨_, rfl⟩ hslash

/-- A character is written with at least one, and a quote only behind a backslash. -/
theorem Spells.exists_eq_cons {piece : List Char} (h : Spells c piece) :
    ∃ d tail, piece = d :: tail ∧ d ≠ '"' := by
  cases h with
  | plain hcontrol hquote hslash => exact ⟨_, _, rfl, hquote⟩
  | short => exact ⟨_, _, rfl, by decide⟩
  | unit => exact ⟨_, _, rfl, by decide⟩
  | pair => exact ⟨_, _, rfl, by decide⟩

/-- Reading a character makes a text shorter. -/
theorem length_le_of_char? {d : Char} (h : char? (d :: cs) = some (c, rest)) :
    rest.length ≤ cs.length := by
  obtain ⟨piece, hsplit, hpiece⟩ := char?_eq_some_iff.1 h
  obtain ⟨_, tail, rfl, -⟩ := hpiece.exists_eq_cons
  cases hsplit
  exact (List.suffix_append tail rest).length_le

theorem body?_of_char? {d : Char} {behind : List Char} (hquote : d ≠ '"')
    (hchar : char? (d :: cs) = some (c, behind)) :
    body? (d :: cs) = (body? behind).map fun found => (c :: found.1, found.2) := by
  rw [body?, if_neg hquote, hchar]
  exact if_pos (length_le_of_char? hchar)

theorem body?_eq_some_iff {content : List Char} :
    body? cs = some (content, rest) ↔
      ∃ body, cs = body ++ '"' :: rest ∧ SpellsAll content body := by
  constructor
  · intro h
    induction cs using body?.induct generalizing content with
    | case1 =>
        rw [body?] at h
        cases h
    | case2 behind =>
        rw [body?, if_pos rfl] at h
        cases h
        exact ⟨[], rfl, .nil⟩
    | case3 d cs hquote hchar =>
        rw [body?, if_neg hquote, hchar] at h
        cases h
    | case4 d cs hquote c behind hchar hshorter ih =>
        rw [body?_of_char? hquote hchar] at h
        obtain ⟨⟨content, rest⟩, hbody, heq⟩ := Option.map_eq_some_iff.1 h
        cases heq
        obtain ⟨body, rfl, hspells⟩ := ih hbody
        obtain ⟨piece, hsplit, hpiece⟩ := char?_eq_some_iff.1 hchar
        exact ⟨piece ++ body, by rw [hsplit, List.append_assoc], .cons hpiece hspells⟩
    | case5 d cs hquote c behind hchar hlonger =>
        exact absurd (length_le_of_char? hchar) hlonger
  · rintro ⟨body, rfl, hbody⟩
    induction hbody with
    | nil => rw [List.nil_append, body?, if_pos rfl]
    | @cons c content piece body hpiece hrest ih =>
        obtain ⟨d, tail, rfl, hquote⟩ := hpiece.exists_eq_cons
        have hchar : char? (d :: (tail ++ (body ++ '"' :: rest))) =
            some (c, body ++ '"' :: rest) :=
          char?_eq_some_iff.2 ⟨d :: tail, rfl, hpiece⟩
        rw [List.append_assoc, List.cons_append, body?_of_char? hquote hchar, ih]
        rfl

end Strings

/-! ## Tokens -/

/-- A number, with all that could belong to it. -/
def number? (cs : List Char) : Option (Token × List Char) :=
  let run := cs.takeWhile isNumberChar
  if isNumber run then
    some (.scalar (.number (String.ofList run)), cs.dropWhile isNumberChar)
  else none

def word? (cs : List Char) : Option (Token × List Char) :=
  words.findSome? fun entry =>
    (Include.afterLead? entry.1 cs).map fun rest => (.scalar entry.2, rest)

/-- A token in front of a text. -/
def token? : List Char → Option (Token × List Char)
  | [] => none
  | c :: cs =>
      if c ∈ marks then some (.mark c, cs)
      else if c = '"' then
        (body? cs).map fun found => (.scalar (.text (String.ofList found.1)), found.2)
      else if isNumberChar c then number? (c :: cs)
      else word? (c :: cs)

/-- The tokens of a text. -/
def tokens? (cs : List Char) : Option (List Token) :=
  match cs with
  | [] => some []
  | c :: rest =>
      if isBlank c then tokens? rest
      else match token? (c :: rest) with
        | none => none
        | some (t, behind) =>
            if behind.length ≤ rest.length then (tokens? behind).map (t :: ·)
            else none
termination_by cs.length

section Tokens

variable {cs rest : List Char} {t : Token}

theorem takeWhile_append_eq_self {p : Char → Bool} {run : List Char}
    (hrun : ∀ c ∈ run, p c = true) (hrest : ∀ c ∈ rest.head?, p c = false) :
    (run ++ rest).takeWhile p = run ∧ (run ++ rest).dropWhile p = rest := by
  rw [List.takeWhile_append_of_pos hrun, List.dropWhile_append_of_pos hrun]
  cases rest with
  | nil => simp
  | cons c rest => simp [hrest c rfl]

theorem number?_eq_some_iff :
    number? cs = some (t, rest) ↔ ∃ literal : String, cs = literal.toList ++ rest ∧
      t = .scalar (.number literal) ∧ (∀ c ∈ literal.toList, isNumberChar c = true) ∧
      isNumber literal.toList = true ∧ t.EndsBefore rest := by
  constructor
  · intro h
    unfold number? at h
    simp only at h
    split at h
    · rename_i hnumber
      cases h
      refine ⟨String.ofList (cs.takeWhile isNumberChar), ?_, rfl, ?_, ?_, ?_⟩
      · rw [String.toList_ofList, List.takeWhile_append_dropWhile]
      · rw [String.toList_ofList]
        exact fun c hc => List.all_eq_true.1 List.all_takeWhile c hc
      · rwa [String.toList_ofList]
      · intro c hc
        have hfirst := List.head?_dropWhile_not isNumberChar cs
        rw [Option.mem_def.1 hc] at hfirst
        exact hfirst
    · cases h
  · rintro ⟨literal, rfl, rfl, hchars, hnumber, hend⟩
    obtain ⟨htake, hdrop⟩ := takeWhile_append_eq_self hchars hend
    rw [number?, htake, hdrop, if_pos hnumber, String.ofList_toList]

theorem eq_of_mem_words {entry : List Char × Scalar} (h : entry ∈ words) :
    entry = ("null".toList, .null) ∨ entry = ("true".toList, .bool true) ∨
      entry = ("false".toList, .bool false) := by
  rwa [words, List.mem_cons, List.mem_cons, List.mem_singleton] at h

theorem word?_eq_some_iff :
    word? cs = some (t, rest) ↔
      ∃ entry ∈ words, cs = entry.1 ++ rest ∧ t = .scalar entry.2 := by
  constructor
  · intro h
    obtain ⟨entry, hentry, hfound⟩ := List.exists_of_findSome?_eq_some h
    obtain ⟨behind, hlead, heq⟩ := Option.map_eq_some_iff.1 hfound
    cases heq
    exact ⟨entry, hentry, Include.afterLead?_eq_some_iff.1 hlead, rfl⟩
  · rintro ⟨entry, hentry, rfl, rfl⟩
    rcases eq_of_mem_words hentry with rfl | rfl | rfl
    all_goals rfl

/-- A character of numbers begins no other token, and it is no blank. -/
theorem not_mem_marks_of_isNumberChar {c : Char} (h : isNumberChar c = true) :
    c ∉ marks ∧ c ≠ '"' ∧ isBlank c = false := by
  have hothers : ∀ d ∈ marks ++ ['"', ' ', '\t', '\n', '\r'], isNumberChar d = false := by
    simp [marks, isNumberChar]
  have hc : c ∉ marks ++ ['"', ' ', '\t', '\n', '\r'] := by
    intro hmem
    rw [hothers c hmem] at h
    cases h
  rw [List.mem_append, List.mem_cons, not_or, not_or] at hc
  obtain ⟨hmark, hquote, hblank⟩ := hc
  refine ⟨hmark, hquote, ?_⟩
  rw [isBlank, List.contains_eq_mem, decide_eq_false hblank]

theorem exists_eq_cons_of_isNumber {literal : List Char} (h : isNumber literal = true)
    (hchars : ∀ c ∈ literal, isNumberChar c = true) :
    ∃ c tail, literal = c :: tail ∧ isNumberChar c = true := by
  cases literal with
  | nil => contradiction
  | cons c tail => exact ⟨c, tail, rfl, hchars c List.mem_cons_self⟩

/-- A token is written with at least one character, which is no blank. -/
theorem IsLexeme.exists_eq_cons {lexeme : List Char} (h : IsLexeme t lexeme) :
    ∃ c tail, lexeme = c :: tail ∧ isBlank c = false := by
  cases h with
  | mark hmark =>
      have hblank : ∀ c ∈ marks, isBlank c = false := by simp [marks, isBlank]
      exact ⟨_, _, rfl, hblank _ hmark⟩
  | word hentry =>
      rcases eq_of_mem_words hentry with rfl | rfl | rfl
      · exact ⟨'n', _, rfl, by decide⟩
      · exact ⟨'t', _, rfl, by decide⟩
      · exact ⟨'f', _, rfl, by decide⟩
  | number hchars hnumber =>
      obtain ⟨c, tail, hliteral, hc⟩ := exists_eq_cons_of_isNumber hnumber hchars
      exact ⟨c, tail, hliteral, (not_mem_marks_of_isNumberChar hc).2.2⟩
  | text hspells => exact ⟨_, _, rfl, by decide⟩

theorem exists_isLexeme_of_token? (h : token? cs = some (t, rest)) :
    ∃ lexeme, cs = lexeme ++ rest ∧ IsLexeme t lexeme ∧ t.EndsBefore rest := by
  cases cs with
  | nil => cases h
  | cons c cs =>
      rw [token?] at h
      split_ifs at h with hmark hquote hnumeral
      · cases h
        exact ⟨[c], rfl, .mark hmark, trivial⟩
      · obtain ⟨⟨content, behind⟩, hbody, heq⟩ := Option.map_eq_some_iff.1 h
        cases heq
        obtain ⟨body, rfl, hspells⟩ := body?_eq_some_iff.1 hbody
        refine ⟨'"' :: body ++ ['"'], by simp [hquote], .text ?_, trivial⟩
        rwa [String.toList_ofList]
      · obtain ⟨literal, hsplit, rfl, hchars, hnumber, hend⟩ := number?_eq_some_iff.1 h
        exact ⟨literal.toList, hsplit, .number hchars hnumber, hend⟩
      · obtain ⟨entry, hentry, hsplit, rfl⟩ := word?_eq_some_iff.1 h
        refine ⟨entry.1, hsplit, .word hentry, ?_⟩
        rcases eq_of_mem_words hentry with rfl | rfl | rfl
        all_goals trivial

theorem IsLexeme.token?_append {lexeme : List Char} (ht : IsLexeme t lexeme)
    (hend : t.EndsBefore rest) : token? (lexeme ++ rest) = some (t, rest) := by
  cases ht with
  | mark hmark => exact if_pos hmark
  | word hentry =>
      rcases eq_of_mem_words hentry with rfl | rfl | rfl
      all_goals rfl
  | @number literal hchars hnumber =>
      obtain ⟨c, tail, hliteral, hc⟩ := exists_eq_cons_of_isNumber hnumber hchars
      obtain ⟨hmark, hquote, -⟩ := not_mem_marks_of_isNumberChar hc
      have hrun : number? (c :: (tail ++ rest)) = some (.scalar (.number literal), rest) :=
        number?_eq_some_iff.2 ⟨literal, by rw [hliteral]; rfl, rfl, hchars, hnumber, hend⟩
      rw [hliteral, List.cons_append, token?, if_neg hmark, if_neg hquote, if_pos hc, hrun]
  | @text content body hspells =>
      have hbody : body? (body ++ ['"'] ++ rest) = some (content.toList, rest) :=
        body?_eq_some_iff.2 ⟨body, by simp, hspells⟩
      rw [List.cons_append, List.cons_append, token?, if_neg (by decide), if_pos rfl, hbody,
        Option.map_some, String.ofList_toList]

theorem token?_eq_some_iff :
    token? cs = some (t, rest) ↔
      ∃ lexeme, cs = lexeme ++ rest ∧ IsLexeme t lexeme ∧ t.EndsBefore rest := by
  constructor
  · exact exists_isLexeme_of_token?
  · rintro ⟨lexeme, rfl, ht, hend⟩
    exact ht.token?_append hend

theorem length_le_of_token? {c : Char} (h : token? (c :: cs) = some (t, rest)) :
    rest.length ≤ cs.length := by
  obtain ⟨lexeme, hsplit, ht, -⟩ := token?_eq_some_iff.1 h
  obtain ⟨_, tail, rfl, -⟩ := ht.exists_eq_cons
  cases hsplit
  exact (List.suffix_append tail rest).length_le

theorem tokens?_of_token? {c : Char} {behind : List Char} (hblank : ¬ isBlank c = true)
    (htoken : token? (c :: cs) = some (t, behind)) :
    tokens? (c :: cs) = (tokens? behind).map (t :: ·) := by
  rw [tokens?, if_neg hblank, htoken]
  exact if_pos (length_le_of_token? htoken)

theorem tokens?_eq_some_iff {tokens : List Token} :
    tokens? cs = some tokens ↔ Lexes cs tokens := by
  constructor
  · intro h
    induction cs using tokens?.induct generalizing tokens with
    | case1 =>
        rw [tokens?] at h
        cases h
        exact .nil
    | case2 c cs hblank ih =>
        rw [tokens?, if_pos hblank] at h
        exact .blank hblank (ih h)
    | case3 c cs hblank htoken =>
        rw [tokens?, if_neg hblank, htoken] at h
        cases h
    | case4 c cs hblank t behind htoken hshorter ih =>
        rw [tokens?_of_token? hblank htoken] at h
        obtain ⟨tokens, hbehind, heq⟩ := Option.map_eq_some_iff.1 h
        cases heq
        obtain ⟨lexeme, hsplit, ht, hend⟩ := token?_eq_some_iff.1 htoken
        rw [hsplit]
        exact .token ht hend (ih hbehind)
    | case5 c cs hblank t behind htoken hlonger =>
        exact absurd (length_le_of_token? htoken) hlonger
  · intro h
    induction h with
    | nil => rw [tokens?]
    | blank hblank h ih => rw [tokens?, if_pos hblank, ih]
    | @token t lexeme cs tokens ht hend h ih =>
        obtain ⟨c, tail, rfl, hblank⟩ := ht.exists_eq_cons
        have htoken : token? (c :: (tail ++ cs)) = some (t, cs) := ht.token?_append hend
        rw [List.cons_append, tokens?_of_token? (by simp [hblank]) htoken, ih]
        rfl

end Tokens

/-! ## Values -/

/-- The value of a JSON text. -/
def decode? (text : String) : Option Value :=
  (tokens? text.toList).bind assemble?

/-- The decoder accepts the JSON texts and nothing else. -/
theorem decode?_eq_some_iff {text : String} {v : Value} :
    decode? text = some v ↔ IsText text v := by
  rw [decode?, Option.bind_eq_some_iff]
  simp only [tokens?_eq_some_iff, assemble?_eq_some_iff]
  constructor
  · rintro ⟨_, hlexes, rfl⟩
    exact hlexes
  · exact fun h => ⟨_, h, rfl⟩

example :
    decode? "[-1.5e3, \"\\ud83d\\ude00\"]" =
      some (.list [.scalar (.number "-1.5e3"), .text (String.singleton (Char.ofNat 0x1f600))]) ∧
    decode? "[null, ]" = none := by
  constructor
  · cbv
  · cbv

/-- A text is the JSON form of one value only. -/
theorem IsText.unique {text : String} {v w : Value} (hv : IsText text v) (hw : IsText text w) :
    w = v := by
  have hdecode := decode?_eq_some_iff.2 hw
  rw [decode?_eq_some_iff.2 hv, Option.some.injEq] at hdecode
  exact hdecode.symm

end Json
end Amalgam
