import Amalgam.Proofs.Json.Grammar

namespace Amalgam
namespace Json

/-!
# From JSON tokens to values

A machine with a stack takes one token after the other and puts them together to a value.
Which tokens it has taken can be read off its state, so it never takes a token that does not
belong to the value it ends with.
-/

/-! ## The machine -/

/-- A list or an object that is open, with the parts that are complete. -/
inductive Frame where
  | list (done : List Value)
  | object (done : List (String × Value)) (key : String)

/-- What the machine waits for. -/
inductive State where
  | value (stack : List Frame)
  /-- The first item of a list, or its end. -/
  | firstItem (stack : List Frame)
  /-- The first key of an object, or its end. -/
  | firstKey (stack : List Frame)
  | key (done : List (String × Value)) (stack : List Frame)
  | colon (done : List (String × Value)) (key : String) (stack : List Frame)
  /-- What may come behind a value. -/
  | after (v : Value) (stack : List Frame)

def beginValue (stack : List Frame) : Token → Option State
  | .scalar content => some (.after (.scalar content) stack)
  | .mark '[' => some (.firstItem stack)
  | .mark '\x7b' => some (.firstKey stack)
  | _ => none

def beginMember (done : List (String × Value)) (stack : List Frame) : Token → Option State
  | .scalar (.text key) => some (.colon done key stack)
  | _ => none

def step : State → Token → Option State
  | .value stack, t => beginValue stack t
  | .firstItem stack, t =>
      if t = .mark ']' then some (.after (.list []) stack) else beginValue (.list [] :: stack) t
  | .firstKey stack, t =>
      if t = .mark '\x7d' then some (.after (.object []) stack) else beginMember [] stack t
  | .key done stack, t => beginMember done stack t
  | .colon done key stack, t =>
      if t = .mark ':' then some (.value (.object done key :: stack)) else none
  | .after v (.list done :: stack), t =>
      if t = .mark ',' then some (.value (.list (done ++ [v]) :: stack))
      else if t = .mark ']' then some (.after (.list (done ++ [v])) stack)
      else none
  | .after v (.object done key :: stack), t =>
      if t = .mark ',' then some (.key (done ++ [(key, v)]) stack)
      else if t = .mark '\x7d' then some (.after (.object (done ++ [(key, v)])) stack)
      else none
  | .after _ [], _ => none

/-- The value that tokens make up. -/
def assemble? (tokens : List Token) : Option Value :=
  match tokens.foldlM step (.value []) with
  | some (.after v []) => some v
  | _ => none

/-! ## The tokens that a state has taken -/

/-- The tokens of a member of an object. -/
def memberTokens (m : String × Value) : List Token :=
  keyTokens m.1 ++ m.2.tokens

/-- Token sequences with a comma behind each. -/
def followed (parts : List (List Token)) : List Token :=
  parts.flatMap (· ++ [.mark ','])

def Frame.tokens : Frame → List Token
  | .list done => .mark '[' :: followed (done.map Value.tokens)
  | .object done key => .mark '\x7b' :: followed (done.map memberTokens) ++ keyTokens key

/-- The tokens of the open lists and objects, the innermost of which comes first. -/
def stackTokens : List Frame → List Token
  | [] => []
  | frame :: stack => stackTokens stack ++ frame.tokens

def State.tokens : State → List Token
  | .value stack => stackTokens stack
  | .firstItem stack => stackTokens stack ++ [.mark '[']
  | .firstKey stack => stackTokens stack ++ [.mark '\x7b']
  | .key done stack => stackTokens stack ++ .mark '\x7b' :: followed (done.map memberTokens)
  | .colon done name stack =>
      stackTokens stack ++ .mark '\x7b' :: followed (done.map memberTokens) ++
        [.scalar (.text name)]
  | .after v stack => stackTokens stack ++ v.tokens

theorem separated_append_singleton (parts : List (List Token)) (last : List Token) :
    separated (parts ++ [last]) = followed parts ++ last := by
  induction parts with
  | nil => simp [separated, followed]
  | cons part parts ih =>
      rw [separated, followed] at *
      cases parts with
      | nil => simp
      | cons next parts =>
          rw [List.cons_append, List.cons_append, List.intercalate_cons_cons, ← List.cons_append,
            ih]
          simp

theorem tokens_object (members : List (String × Value)) :
    (Value.object members).tokens =
      .mark '\x7b' :: separated (members.map memberTokens) ++ [.mark '\x7d'] := by
  rw [Value.tokens]
  rfl

theorem tokens_of_beginValue {stack : List Frame} {t : Token} {st : State}
    (h : beginValue stack t = some st) : st.tokens = stackTokens stack ++ [t] := by
  unfold beginValue at h
  split at h
  · cases h
    rw [State.tokens, Value.tokens]
  · cases h
    rfl
  · cases h
    rfl
  · cases h

theorem tokens_of_beginMember {done : List (String × Value)} {stack : List Frame} {t : Token}
    {st : State} (h : beginMember done stack t = some st) :
    st.tokens = (State.key done stack).tokens ++ [t] := by
  unfold beginMember at h
  split at h
  · cases h
    rfl
  · cases h

/-- A step takes one token and forgets none. -/
theorem tokens_step {st st' : State} {t : Token} (h : step st t = some st') :
    st'.tokens = st.tokens ++ [t] := by
  unfold step at h
  split at h
  case h_1 stack => exact tokens_of_beginValue h
  case h_2 stack =>
    split at h
    · cases h
      subst_vars
      rw [State.tokens, State.tokens, Value.tokens]
      simp [separated]
    · rw [tokens_of_beginValue h, State.tokens, stackTokens, Frame.tokens]
      rfl
  case h_3 stack =>
    split at h
    · cases h
      subst_vars
      rw [State.tokens, State.tokens, tokens_object]
      simp [separated]
    · exact tokens_of_beginMember h
  case h_4 done stack => exact tokens_of_beginMember h
  case h_5 done key stack =>
    split at h
    · cases h
      subst_vars
      simp [State.tokens, stackTokens, Frame.tokens, keyTokens]
    · cases h
  case h_6 v done stack =>
    split at h
    · cases h
      subst_vars
      simp [State.tokens, stackTokens, Frame.tokens, followed]
    · split at h
      · cases h
        subst_vars
        rw [State.tokens, State.tokens, Value.tokens, List.map_append, List.map_singleton,
          separated_append_singleton]
        simp [stackTokens, Frame.tokens]
      · cases h
  case h_7 v done key stack =>
    split at h
    · cases h
      subst_vars
      simp [State.tokens, stackTokens, Frame.tokens, followed, memberTokens]
    · split at h
      · cases h
        subst_vars
        rw [State.tokens, State.tokens, tokens_object, List.map_append, List.map_singleton,
          separated_append_singleton]
        simp [stackTokens, Frame.tokens, memberTokens]
      · cases h
  case h_8 => cases h

theorem tokens_foldlM_step {st st' : State} {tokens : List Token}
    (h : tokens.foldlM step st = some st') : st'.tokens = st.tokens ++ tokens := by
  induction tokens generalizing st with
  | nil =>
      cases h
      rw [List.append_nil]
  | cons t tokens ih =>
      rw [List.foldlM_cons] at h
      obtain ⟨next, hnext, h⟩ := Option.bind_eq_some_iff.1 h
      rw [ih h, tokens_step hnext, List.append_assoc, List.singleton_append]

/-! ## The machine takes the tokens of a value -/

/-- How the machine goes through the parts of a list or an object: a part leads behind
itself, from there a comma leads to the next part, and a bracket to the end. -/
structure Course (α : Type) where
  write : α → List Token
  opened : List α → State
  behind : List α → α → State
  closed : List α → State
  bracket : Token
  step_comma : ∀ done part, step (behind done part) (.mark ',') = some (opened (done ++ [part]))
  step_bracket : ∀ done part, step (behind done part) bracket = some (closed (done ++ [part]))

def itemsCourse (stack : List Frame) : Course Value where
  write := Value.tokens
  opened done := .value (.list done :: stack)
  behind done v := .after v (.list done :: stack)
  closed items := .after (.list items) stack
  bracket := .mark ']'
  step_comma _ _ := rfl
  step_bracket _ _ := rfl

def membersCourse (stack : List Frame) : Course (String × Value) where
  write := memberTokens
  opened done := .key done stack
  behind done m := .after m.2 (.object done m.1 :: stack)
  closed members := .after (.object members) stack
  bracket := .mark '\x7d'
  step_comma _ _ := rfl
  step_bracket _ _ := rfl

theorem separated_cons_cons (part next : List Token) (parts : List (List Token)) :
    separated (part :: next :: parts) = part ++ .mark ',' :: separated (next :: parts) := by
  rw [separated, List.intercalate_cons_cons, List.append_assoc]
  rfl

/-- If the first part is taken, and the others are wherever the course has come to, then the
course is gone through. -/
theorem Course.foldlM_step {α : Type} (c : Course α) (done : List α) {part : α}
    {parts : List α} {st : State}
    (hfirst : (c.write part).foldlM step st = some (c.behind done part))
    (hparts : ∀ next ∈ parts, ∀ done,
      (c.write next).foldlM step (c.opened done) = some (c.behind done next)) :
    (separated ((part :: parts).map c.write) ++ [c.bracket]).foldlM step st =
      some (c.closed (done ++ part :: parts)) := by
  induction parts generalizing done part st with
  | nil =>
      rw [List.map_singleton, separated, List.intercalate_singleton, List.foldlM_append, hfirst]
      show [c.bracket].foldlM step (c.behind done part) = _
      rw [List.foldlM_cons, c.step_bracket]
      rfl
  | cons next parts ih =>
      obtain ⟨hnext, hparts⟩ := List.forall_mem_cons.1 hparts
      have hrest := ih (done ++ [part]) (hnext _) hparts
      rw [List.append_assoc, List.singleton_append] at hrest
      rw [List.map_cons, List.map_cons, separated_cons_cons, List.append_assoc,
        List.foldlM_append, hfirst, ← hrest]
      show (_ :: _).foldlM step (c.behind done part) = _
      rw [List.foldlM_cons, c.step_comma]
      rfl

/-- No value begins with a closing bracket. -/
theorem exists_tokens_eq_cons (v : Value) :
    ∃ t rest, v.tokens = t :: rest ∧ t ≠ Token.mark ']' := by
  cases v with
  | scalar content => exact ⟨.scalar content, [], by rw [Value.tokens], nofun⟩
  | list items => exact ⟨_, _, by rw [Value.tokens]; rfl, by decide⟩
  | object members => exact ⟨_, _, by rw [tokens_object]; rfl, by decide⟩

/-- In front of the first item of a list, the machine is ready for any value. -/
theorem foldlM_step_firstItem (v : Value) (stack : List Frame) :
    v.tokens.foldlM step (.firstItem stack) =
      v.tokens.foldlM step (.value (.list [] :: stack)) := by
  obtain ⟨t, rest, htokens, ht⟩ := exists_tokens_eq_cons v
  rw [htokens, List.foldlM_cons, List.foldlM_cons, step, step, if_neg ht]

theorem foldlM_step_tokens (v : Value) (stack : List Frame) :
    v.tokens.foldlM step (.value stack) = some (.after v stack) := by
  induction v using Value.tokens.induct generalizing stack with
  | case1 content =>
      rw [Value.tokens]
      rfl
  | case2 items ih =>
      rw [Value.tokens]
      cases items with
      | nil => rfl
      | cons v items =>
          obtain ⟨hv, hitems⟩ := List.forall_mem_cons.1 ih
          -- Where the first item begins, the list could also end.
          refine (itemsCourse stack).foldlM_step [] ?_ ?_
          · exact (foldlM_step_firstItem v stack).trans (hv _)
          · exact fun next hnext done => hitems next hnext _
  | case3 members ih =>
      rw [tokens_object]
      cases members with
      | nil => rfl
      | cons m members =>
          obtain ⟨hm, hmembers⟩ := List.forall_mem_cons.1 ih
          refine (membersCourse stack).foldlM_step [] ?_ ?_
          · exact hm _
          · exact fun next hnext done => hmembers next hnext _

/-- The machine accepts the tokens of a value and nothing else. -/
theorem assemble?_eq_some_iff {tokens : List Token} {v : Value} :
    assemble? tokens = some v ↔ tokens = v.tokens := by
  constructor
  · intro h
    unfold assemble? at h
    split at h
    · rename_i hrun
      cases h
      exact (tokens_foldlM_step hrun).symm
    · cases h
  · rintro rfl
    rw [assemble?, foldlM_step_tokens]

end Json
end Amalgam
