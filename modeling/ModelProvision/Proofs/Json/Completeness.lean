import ModelProvision.Proofs.Json.Step

/-!
# The reader is complete

Whatever the grammar allows is read, and read as what it denotes, unless a limit is in the way
(`Spells.complete`). And a limit is always in the way of what goes beyond it, whether or not the text
follows the grammar from there on (`Reaches.hitsLimit`): the reader gets to every place at which the
grammar has a value due, since everything before it is read.
-/

namespace ModelProvision.Json

/-- A refusal of a text that goes beyond what is read, well-formed or not. -/
def Refusal.IsLimit : Refusal → Prop
  | malformed .. => False
  | oversizedInteger _ | tooDeep _ => True

namespace Grammar

/-! ## What the grammar allows is read, up to the limits

The fuel that a text needs grows by two with each code point: one step for a value and one for the
list it stands in. -/

/-- The text was refused for a limit. -/
def HitsLimit {α : Type} (result : Except Refusal α) : Prop :=
  ∃ refusal, refusal.IsLimit ∧ result = .error refusal

/-- The text was read as expected, or it was refused for a limit. -/
def Reads {α : Type} (result : Except Refusal α) (expected : α) : Prop :=
  result = .ok expected ∨ HitsLimit result

theorem HitsLimit.map {α β : Type} {result : Except Refusal α} (h : HitsLimit result) (f : α → β) :
    HitsLimit (result.map f) := by
  obtain ⟨refusal, hlimit, rfl⟩ := h
  exact ⟨refusal, hlimit, rfl⟩

theorem Reads.map {α β : Type} {result : Except Refusal α} {expected : α} (h : Reads result expected)
    (f : α → β) : Reads (result.map f) (f expected) := by
  rcases h with rfl | h
  · exact .inl rfl
  · exact .inr (h.map f)

theorem exists_fewer {n fuel : Nat} (h : n < fuel) : ∃ fewer, fuel = fewer + 1 :=
  Nat.exists_eq_succ_of_ne_zero (Nat.ne_zero_of_lt h)

/-- What the reader makes of a phrase of the grammar. -/
def Complete (t : Text) (phrase : Phrase) (rest : Text) : Prop :=
  ∀ fuel depth, match phrase with
    | .value v => 2 * t.length < fuel → Ends rest → Reads (readValue fuel depth t) (v, rest)
    | .element v => 2 * t.length < fuel → Ends rest →
      ∃ after, skipSpace after = skipSpace rest ∧
        Reads (readValue fuel depth (skipSpace t)) (v, after)
    | .elements vs => ∀ next, rest = .char ']' :: next → 2 * t.length + 1 < fuel →
      Reads (readItems fuel depth (skipSpace t)) (vs, next)
    | .members pairs => ∀ next, rest = .char '}' :: next → 2 * t.length + 1 < fuel →
      Reads (readMembers fuel depth (skipSpace t)) (pairs, next)

/-- A name is no string, array or object, so it is read as a scalar … -/
theorem readValue_of_literal {name : Text} {v : Json} (h : Literal name v) (rest : Text)
    (fuel depth : Nat) : readValue (fuel + 1) depth (name ++ rest) = .ok (v, rest) := by
  have hscalar := readScalar_of_literal h rest
  obtain ⟨p, q, more, rfl, hp, -⟩ := h.head
  -- the initial of a name begins nothing else
  have hinitials : ∀ p ∈ initials, p ≠ .char '"' ∧ ∀ compound, p ≠ opening compound := by
    intro p hp
    refine ⟨?_, fun compound => ?_⟩
    · revert p
      decide
    · cases compound <;> revert p <;> decide
  obtain ⟨hquote, hopening⟩ := hinitials p hp
  rw [← hscalar]
  exact readValue_scalar (fun _ heq => hquote (List.cons.inj heq).1)
    (fun compound _ heq => hopening compound (List.cons.inj heq).1) fuel depth

/-- … and so is a number. -/
theorem readValue_of_number {t rest : Text} {n : Numeral} (h : Number t n rest)
    (fuel depth : Nat) : readValue (fuel + 1) depth t = readScalar t := by
  obtain ⟨p, more, rfl, hp⟩ := h.head
  refine readValue_scalar (fun more' heq => ?_) (fun compound more' heq => ?_) fuel depth
  · obtain ⟨rfl, -⟩ := List.cons.inj heq
    rcases hp with hp | ⟨hp, -⟩ <;> exact absurd hp (by decide)
  · obtain ⟨rfl, -⟩ := List.cons.inj heq
    cases compound <;> rcases hp with hp | ⟨hp, -⟩ <;> exact absurd hp (by decide)

/-- Inside of an array or an object there is one level less, and where none is left the limit is
hit. -/
theorem reads_of_compound (compound : Compound) {t : Text} {expected : Json × Text} {fuel depth : Nat}
    (h : ∀ fewer, depth = fewer + 1 →
      Reads (readValue (fuel + 1) (fewer + 1) (opening compound :: t)) expected) :
    Reads (readValue (fuel + 1) depth (opening compound :: t)) expected := by
  cases depth with
  | zero => exact .inr ⟨.tooDeep compound, trivial, readValue_tooDeep fuel compound t⟩
  | succ fewer => exact h fewer rfl

/-- An element before a comma or a closing bracket is read up to it. -/
theorem Complete.element_before {t next : Text} {v : Json} {p : CodePoint}
    (h : Complete t (.element v) (p :: next))
    (hp : p = .char ',' ∨ p = .char ']' ∨ p = .char '}') (fuel depth : Nat)
    (hfuel : 2 * t.length < fuel) :
    (∃ after, readValue fuel depth (skipSpace t) = .ok (v, after) ∧ skipSpace after = p :: next) ∨
      HitsLimit (readValue fuel depth (skipSpace t)) := by
  obtain ⟨after, hafter, hread⟩ := h fuel depth hfuel (ends_cons hp next)
  have hspace : isSpace p = false := by rcases hp with rfl | rfl | rfl <;> decide
  rw [skipSpace_cons hspace] at hafter
  exact hread.imp (fun hread => ⟨after, hread, hafter⟩) id

/-- A limit in an element is one of the list … -/
theorem HitsLimit.readItems {fuel depth : Nat} {t : Text} (h : HitsLimit (readValue fuel depth t)) :
    HitsLimit (readItems (fuel + 1) depth t) := by
  obtain ⟨refusal, hlimit, hread⟩ := h
  exact ⟨refusal, hlimit, readItems_of_error hread⟩

/-- … and one in the value of a member is one of the members. -/
theorem HitsLimit.readMembers {fuel depth : Nat} {t name start : Text}
    (h : HitsLimit (readValue fuel depth (skipSpace start)))
    (hname : readName t = .ok (name, start)) : HitsLimit (readMembers (fuel + 1) depth t) := by
  obtain ⟨refusal, hlimit, hread⟩ := h
  exact ⟨refusal, hlimit, readMembers_of_error hname hread⟩

/-- **What the grammar spells is read**, up to the limits. -/
theorem Spells.complete {t rest : Text} {phrase : Phrase} (h : Spells t phrase rest) :
    Complete t phrase rest := by
  -- along the derivation; `Complete` is about all fuel and depth, for what is inside has less of both
  induction h with
  | literal hname =>
    intro fuel depth hfuel _
    obtain ⟨fuel, rfl⟩ := exists_fewer hfuel
    exact .inl (readValue_of_literal hname _ fuel depth)
  | @number t rest n v hnumber hv =>
    intro fuel depth hfuel hends
    obtain rfl := (denotes_iff hnumber).mp hv
    obtain ⟨fuel, rfl⟩ := exists_fewer hfuel
    have hscalar := readScalar_of_number hnumber hends.stops
    rw [← readValue_of_number hnumber fuel depth] at hscalar
    -- an integer literal that is too long is the one number that hits a limit
    split at hscalar
    · exact .inr ⟨.oversizedInteger n.whole.length, trivial, hscalar⟩
    · exact .inl hscalar
  | @string t content rest hcontent =>
    intro fuel depth hfuel _
    obtain ⟨fuel, rfl⟩ := exists_fewer hfuel
    refine .inl ?_
    rw [readValue_string, readString_of_content hcontent]
    rfl
  | emptyArray hblanks =>
    intro fuel depth hfuel _
    obtain ⟨fuel, rfl⟩ := exists_fewer hfuel
    refine reads_of_compound .array fun fewer _ => .inl ?_
    exact readValue_emptyArray (hblanks.skipSpace_eq.trans (skipSpace_cons (by decide) _)) fuel fewer
  | @array t rest vs helements ih =>
    intro fuel depth hfuel _
    obtain ⟨fuel, rfl⟩ := exists_fewer hfuel
    simp only [List.length_cons] at hfuel
    refine reads_of_compound .array fun fewer _ => ?_
    -- the elements have one level and one step less than the array
    have hread := ih fuel fewer rest rfl (by omega)
    rw [opening, readValue_array helements.ne_close_elements]
    exact hread.map _
  | emptyObject hblanks =>
    intro fuel depth hfuel _
    obtain ⟨fuel, rfl⟩ := exists_fewer hfuel
    refine reads_of_compound .object fun fewer _ => .inl ?_
    exact readValue_emptyObject (hblanks.skipSpace_eq.trans (skipSpace_cons (by decide) _)) fuel fewer
  | @object t rest pairs members hpairs hmembers ih =>
    intro fuel depth hfuel _
    obtain ⟨fuel, rfl⟩ := exists_fewer hfuel
    simp only [List.length_cons] at hfuel
    refine reads_of_compound .object fun fewer _ => ?_
    -- the same for members; repeated keys collapse in the grammar as in the reader
    have hread := ih fuel fewer rest rfl (by omega)
    rw [opening, readValue_object hpairs.ne_close_members, Keyed.collapses_iff.mp hmembers]
    exact hread.map _
  | @element t start after rest v hbefore hvalue hafter ih =>
    intro fuel depth hfuel hends
    have hstart : skipSpace t = start := hbefore.skipSpace_eq.trans hvalue.opens.skipSpace_eq
    have hlength := hbefore.suffix.length_le
    have hread := ih fuel depth (by omega) (hends.of_blanks hafter)
    exact ⟨after, hafter.skipSpace_eq, hstart ▸ hread⟩
  | @lastElement t rest v helement ih =>
    intro fuel depth next hrest hfuel
    subst hrest
    obtain ⟨fuel, rfl⟩ := exists_fewer hfuel
    rcases ih.element_before (by simp) fuel depth (by omega) with ⟨after, hread, hafter⟩ | hlimit
    · exact .inl (readItems_of_close hread hafter)
    · exact .inr hlimit.readItems
  | @elements t next rest v vs helement helements ih ih' =>
    intro fuel depth next' hrest hfuel
    obtain ⟨fuel, rfl⟩ := exists_fewer hfuel
    have hlength := helement.suffix.length_le
    simp only [List.length_cons] at hlength
    rcases ih.element_before (by simp) fuel depth (by omega) with ⟨after, hread, hafter⟩ | hlimit
    · rw [readItems_of_comma hread hafter]
      exact (ih' fuel depth next' hrest (by omega)).map _
    · exact .inr hlimit.readItems
  | @lastMember t start rest name v hname helement ih =>
    intro fuel depth next hrest hfuel
    subst hrest
    obtain ⟨fuel, rfl⟩ := exists_fewer hfuel
    have hlength := hname.suffix.length_le
    simp only [List.length_cons] at hlength
    rcases ih.element_before (by simp) fuel depth (by omega) with ⟨after, hread, hafter⟩ | hlimit
    · exact .inl (readMembers_of_close (readName_of_name hname) hread hafter)
    · exact .inr (hlimit.readMembers (readName_of_name hname))
  | @members t start next rest name v pairs hname helement hmembers ih ih' =>
    intro fuel depth next' hrest hfuel
    obtain ⟨fuel, rfl⟩ := exists_fewer hfuel
    have hlength := hname.suffix.length_le
    have hlength' := helement.suffix.length_le
    simp only [List.length_cons] at hlength hlength'
    rcases ih.element_before (by simp) fuel depth (by omega) with ⟨after, hread, hafter⟩ | hlimit
    · rw [readMembers_of_comma (readName_of_name hname) hread hafter]
      exact (ih' fuel depth next' hrest (by omega)).map _
    · exact .inr (hlimit.readMembers (readName_of_name hname))

/-! ## Where a limit is exceeded, it is hit -/

/-- What stands at `u`, so many levels down, is beyond what is read. -/
def Exceeds (depth deeper : Nat) (u : Text) : Prop :=
  (∃ digits, IntegerAt u digits ∧ 4300 < digits) ∨
    depth ≤ deeper ∧ ∃ compound rest, u = opening compound :: rest

/-- An integer literal is a number without a fraction or an exponent. -/
theorem IntegerAt.number {u : Text} {digits : Nat} (h : IntegerAt u digits) :
    ∃ n rest, Number u n rest ∧ Stops rest ∧ n.fraction = [] ∧ n.exponent = none ∧
      n.whole.length = digits := by
  obtain ⟨negative, start, whole, rest, hminus, hwhole, hstops, hlength⟩ := h
  exact ⟨_, rest, .mk hminus hwhole .absent .absent, hstops, rfl, rfl, hlength⟩

theorem opens_opening (compound : Compound) (rest : Text) : Opens (opening compound :: rest) := by
  cases compound <;> exact ⟨_, rest, rfl, by decide, by decide, by decide⟩

/-- On the way to something that exceeds a limit every text opens a value. -/
theorem Reaches.opens {t u : Text} {depth deeper : Nat} (h : Reaches t deeper u)
    (hexceeds : Exceeds depth deeper u) : Opens t := by
  cases h with
  | here =>
    rcases hexceeds with ⟨digits, hinteger, -⟩ | ⟨-, compound, rest, rfl⟩
    · obtain ⟨n, rest, hnumber, -⟩ := hinteger.number
      exact hnumber.opens
    · exact opens_opening compound rest
  | array => exact opens_opening .array _
  | object => exact opens_opening .object _

section Due

variable {t start : Text} {depth : Nat} (hstart : Opens start)
  (hlimit : ∀ fuel, 2 * start.length < fuel → HitsLimit (readValue fuel depth start))
include hstart

/-- Where an element is due the array does not close. -/
theorem ElementAt.ne_close (h : ElementAt t start) (more : Text) :
    skipSpace t ≠ .char ']' :: more := by
  cases h with
  | first hblanks =>
    rw [hblanks.skipSpace_eq, hstart.skipSpace_eq]
    exact hstart.ne_close more
  | later helement => exact helement.opens_element.ne_close more

include hlimit

/-- A limit that a due element hits is hit by the list: the elements before it are read, unless one
of them hits a limit earlier … -/
theorem ElementAt.hitsLimit (h : ElementAt t start) {fuel : Nat} (hfuel : 2 * t.length + 1 < fuel) :
    HitsLimit (readItems fuel depth (skipSpace t)) := by
  induction h generalizing fuel with
  | first hblanks =>
    obtain ⟨fuel, rfl⟩ := exists_fewer hfuel
    have hlength := hblanks.suffix.length_le
    rw [hblanks.skipSpace_eq, hstart.skipSpace_eq]
    exact (hlimit fuel (by omega)).readItems
  | @later t next u v helement hnext ih =>
    obtain ⟨fuel, rfl⟩ := exists_fewer hfuel
    have hlength := helement.suffix.length_le
    simp only [List.length_cons] at hlength
    rcases helement.complete.element_before (by simp) fuel depth (by omega) with
      ⟨after, hread, hafter⟩ | hearlier
    · rw [readItems_of_comma hread hafter]
      exact (ih hstart hlimit (by omega)).map _
    · exact hearlier.readItems

/-- … and the same goes for members. -/
theorem MemberAt.hitsLimit (h : MemberAt t start) {fuel : Nat} (hfuel : 2 * t.length + 1 < fuel) :
    HitsLimit (readMembers fuel depth (skipSpace t)) := by
  induction h generalizing fuel with
  | @first t after u name hname hblanks =>
    obtain ⟨fuel, rfl⟩ := exists_fewer hfuel
    have hlength := hname.suffix.length_le
    have hlength' := hblanks.suffix.length_le
    simp only [List.length_cons] at hlength
    have hvalue := hlimit fuel (by omega)
    rw [← hstart.skipSpace_eq, ← hblanks.skipSpace_eq] at hvalue
    exact hvalue.readMembers (readName_of_name hname)
  | @later t after next u name v hname helement hnext ih =>
    obtain ⟨fuel, rfl⟩ := exists_fewer hfuel
    have hlength := hname.suffix.length_le
    have hlength' := helement.suffix.length_le
    simp only [List.length_cons] at hlength hlength'
    rcases helement.complete.element_before (by simp) fuel depth (by omega) with
      ⟨after', hread, hafter⟩ | hearlier
    · rw [readMembers_of_comma (readName_of_name hname) hread hafter]
      exact (ih hstart hlimit (by omega)).map _
    · exact hearlier.readMembers (readName_of_name hname)

end Due

/-- Where a member is due the object does not close. -/
theorem MemberAt.ne_close {t start : Text} (h : MemberAt t start) (more : Text) :
    skipSpace t ≠ .char '}' :: more := by
  cases h with
  | first hname | later hname => exact hname.ne_close more

/-- **What exceeds a limit is refused for one**, at whatever depth it stands. -/
theorem Reaches.hitsLimit {t u : Text} {deeper : Nat} (h : Reaches t deeper u) {depth : Nat}
    (hexceeds : Exceeds depth deeper u) {fuel : Nat} (hfuel : 2 * t.length < fuel) :
    HitsLimit (readValue fuel depth t) := by
  -- along the way down: either a level on it is too deep already, or the inner levels hit the limit
  induction h generalizing depth fuel with
  | here =>
    obtain ⟨fuel, rfl⟩ := exists_fewer hfuel
    rcases hexceeds with ⟨digits, hinteger, hlong⟩ | ⟨hdepth, compound, rest, rfl⟩
    · obtain ⟨n, rest, hnumber, hstops, hfraction, hexponent, rfl⟩ := hinteger.number
      rw [readValue_of_number hnumber, readScalar_of_number hnumber hstops,
        if_pos ⟨hfraction, hexponent, hlong⟩]
      exact ⟨.oversizedInteger n.whole.length, trivial, rfl⟩
    · obtain rfl := Nat.le_zero.mp hdepth
      exact ⟨.tooDeep compound, trivial, readValue_tooDeep fuel compound rest⟩
  | @array t start u deeper helement hreaches ih =>
    obtain ⟨fuel, rfl⟩ := exists_fewer hfuel
    simp only [List.length_cons] at hfuel
    cases depth with
    | zero => exact ⟨.tooDeep .array, trivial, readValue_tooDeep fuel .array t⟩
    | succ depth =>
      -- one level further down there is one less to go
      have hinside : Exceeds depth deeper u := hexceeds.imp_right (And.imp_left Nat.le_of_succ_le_succ)
      have hstart := hreaches.opens hinside
      have hread : HitsLimit (readItems fuel depth (skipSpace t)) :=
        helement.hitsLimit hstart (fun fuel hfuel => ih hinside hfuel) (by omega)
      rw [readValue_array (helement.ne_close hstart)]
      exact hread.map _
  | @object t start u deeper hmember hreaches ih =>
    obtain ⟨fuel, rfl⟩ := exists_fewer hfuel
    simp only [List.length_cons] at hfuel
    cases depth with
    | zero => exact ⟨.tooDeep .object, trivial, readValue_tooDeep fuel .object t⟩
    | succ depth =>
      have hinside : Exceeds depth deeper u := hexceeds.imp_right (And.imp_left Nat.le_of_succ_le_succ)
      have hstart := hreaches.opens hinside
      have hread : HitsLimit (readMembers fuel depth (skipSpace t)) :=
        hmember.hitsLimit hstart (fun fuel hfuel => ih hinside hfuel) (by omega)
      rw [readValue_object hmember.ne_close]
      exact hread.map _

end Grammar

end ModelProvision.Json
