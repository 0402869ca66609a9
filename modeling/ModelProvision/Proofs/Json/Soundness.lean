import ModelProvision.Proofs.Json.Step

/-!
# The reader is sound

Whatever is read is in the grammar, and a refusal for a limit is right about it: where the text has
a value due stands one that goes beyond that limit (`LimitFrom`). One step lemma for each of the three
readers says so of a step, from all three with less fuel; `sound` is the induction on the fuel.
-/

namespace ModelProvision.Json.Grammar

/-! ## Blanks in front

The reader skips blanks before it goes on, and the grammar has them as part of what follows. -/

section Prepending

variable {t t' : Text} (hblanks : Blanks t t')
include hblanks

theorem Spells.element_of_blanks {rest : Text} {v : Json} (h : Spells t' (.element v) rest) :
    Spells t (.element v) rest := by
  cases h with
  | element hbefore hvalue hafter => exact .element (hblanks.trans hbefore) hvalue hafter

theorem Spells.elements_of_blanks {rest : Text} {vs : List Json}
    (h : Spells t' (.elements vs) rest) : Spells t (.elements vs) rest := by
  cases h with
  | lastElement helement => exact .lastElement (helement.element_of_blanks hblanks)
  | elements helement helements => exact .elements (helement.element_of_blanks hblanks) helements

theorem Name.of_blanks {name rest : Text} (h : Name t' name rest) : Name t name rest := by
  obtain ⟨content, after, hbefore, hcontent, hafter⟩ := h
  exact ⟨content, after, hblanks.trans hbefore, hcontent, hafter⟩

theorem Spells.members_of_blanks {rest : Text} {pairs : List (Text × Json)}
    (h : Spells t' (.members pairs) rest) : Spells t (.members pairs) rest := by
  cases h with
  | lastMember hname helement => exact .lastMember (hname.of_blanks hblanks) helement
  | members hname helement hmembers => exact .members (hname.of_blanks hblanks) helement hmembers

theorem ElementAt.of_blanks {u : Text} (h : ElementAt t' u) : ElementAt t u := by
  cases h with
  | first hfirst => exact .first (hblanks.trans hfirst)
  | later helement hnext => exact .later (helement.element_of_blanks hblanks) hnext

theorem MemberAt.of_blanks {u : Text} (h : MemberAt t' u) : MemberAt t u := by
  cases h with
  | first hname hfirst => exact .first (hname.of_blanks hblanks) hfirst
  | later hname helement hnext => exact .later (hname.of_blanks hblanks) helement hnext

end Prepending

/-! ## What is read is in the grammar, and limits are hit where values are due -/

/-- Where values are due at the texts `Due`, one of them or one inside of them goes beyond the limit
that a refusal tells of. -/
def LimitFrom (Due : Text → Prop) (depth : Nat) : Refusal → Prop
  | .malformed .. => True
  | .oversizedInteger digits => 4300 < digits ∧
      ∃ start deeper u, Due start ∧ Reaches start deeper u ∧ IntegerAt u digits
  | .tooDeep compound => ∃ start rest, Due start ∧ Reaches start depth (opening compound :: rest)

/-- A limit stays right when more values are due. -/
theorem LimitFrom.mono {Due Due' : Text → Prop} (hdue : ∀ t, Due t → Due' t) {depth : Nat}
    {refusal : Refusal} (h : LimitFrom Due depth refusal) : LimitFrom Due' depth refusal := by
  cases refusal with
  | malformed => trivial
  | oversizedInteger digits =>
    obtain ⟨hlong, start, deeper, u, hstart, hreaches, hinteger⟩ := h
    exact ⟨hlong, start, deeper, u, hdue start hstart, hreaches, hinteger⟩
  | tooDeep compound =>
    obtain ⟨start, rest, hstart, hreaches⟩ := h
    exact ⟨start, rest, hdue start hstart, hreaches⟩

/-- What is due inside of `t` is one level further down. -/
theorem LimitFrom.outside {Due : Text → Prop} {t : Text}
    (hinside : ∀ start deeper u, Due start → Reaches start deeper u → Reaches t (deeper + 1) u)
    {depth : Nat} {refusal : Refusal} (h : LimitFrom Due depth refusal) :
    LimitFrom (· = t) (depth + 1) refusal := by
  cases refusal with
  | malformed => trivial
  | oversizedInteger digits =>
    obtain ⟨hlong, start, deeper, u, hstart, hreaches, hinteger⟩ := h
    exact ⟨hlong, t, deeper + 1, u, rfl, hinside start deeper u hstart hreaches, hinteger⟩
  | tooDeep compound =>
    obtain ⟨start, rest, hstart, hreaches⟩ := h
    exact ⟨t, rest, rfl, hinside start depth _ hstart hreaches⟩

/-- A result is what the grammar has, or a refusal that is right about its limit. -/
def Sound {α : Type} (Found : α → Text → Prop) (Due : Text → Prop) (depth : Nat) :
    Except Refusal (α × Text) → Prop
  | .ok (found, rest) => Found found rest
  | .error refusal => LimitFrom Due depth refusal

/-- What is made of a sound result is sound, if it is made of what is found in the grammar as
well. -/
theorem Sound.map {α β : Type} {Found : α → Text → Prop} {Found' : β → Text → Prop}
    {Due Due' : Text → Prop} {depth depth' : Nat} {result : Except Refusal (α × Text)}
    (h : Sound Found Due depth result) (f : α → β)
    (hfound : ∀ found rest, Found found rest → Found' (f found) rest)
    (hlimit : ∀ refusal, LimitFrom Due depth refusal → LimitFrom Due' depth' refusal) :
    Sound Found' Due' depth' (result.map fun found => (f found.1, found.2)) := by
  cases result with
  | ok found => exact hfound found.1 found.2 h
  | error refusal => exact hlimit refusal h

/-- What is read as a value is one, and a limit is one of the value or of something inside of it. -/
abbrev SoundValue (depth : Nat) (t : Text) : Except Refusal (Json × Text) → Prop :=
  Sound (fun v rest => Spells t (.value v) rest) (· = t) depth

/-- The same for elements up to the closing bracket … -/
abbrev SoundItems (depth : Nat) (t : Text) : Except Refusal (List Json × Text) → Prop :=
  Sound (fun vs rest => Spells t (.elements vs) (.char ']' :: rest)) (ElementAt t) depth

/-- … and for members up to the closing brace. -/
abbrev SoundMembers (depth : Nat) (t : Text) :
    Except Refusal (List (Text × Json) × Text) → Prop :=
  Sound (fun pairs rest => Spells t (.members pairs) (.char '}' :: rest)) (MemberAt t) depth

/-- Names and numbers are read as the grammar has them, and an integer literal that is refused is
too long. -/
theorem sound_readScalar (depth : Nat) (t : Text) : SoundValue depth t (readScalar t) := by
  rw [readScalar]
  split
  · next found hfound =>
    obtain ⟨name, hname, rfl⟩ := literal_of_literal? hfound
    exact .literal hname
  · split
    · trivial
    · next n rest hscan =>
      obtain ⟨hnumber, hinteger⟩ := number_of_scanNumeral? hscan
      rw [value_eq]
      by_cases hlong : n.fraction = [] ∧ n.exponent = none ∧ maxIntegerDigits < n.whole.length
      · rw [if_pos hlong]
        obtain ⟨hfraction, hexponent, hlength⟩ := hlong
        have hdigits : 1 < n.whole.length := by
          rw [maxIntegerDigits] at hlength
          omega
        exact ⟨hlength, t, 0, t, rfl, .here, hinteger hfraction hexponent hdigits⟩
      · rw [if_neg hlong]
        exact .number hnumber ((denotes_iff hnumber).mpr rfl)

/-- One step for a value, from elements and members with less fuel. -/
theorem sound_value_step {fuel : Nat}
    (hitems : ∀ depth t, SoundItems depth t (readItems fuel depth t))
    (hmembers : ∀ depth t, SoundMembers depth t (readMembers fuel depth t)) (depth : Nat)
    (t : Text) : SoundValue depth t (readValue (fuel + 1) depth t) := by
  -- by what the text starts with: a quote, a bracket, or anything else
  by_cases hstring : ∃ content, t = .char '"' :: content
  · obtain ⟨content, rfl⟩ := hstring
    rw [readValue_string]
    cases hread : readString (.char '"' :: content) content with
    | ok found => exact .string (content_of_readString hread)
    | error refusal =>
      obtain ⟨complaint, rest, rfl⟩ := readString_eq_error hread
      trivial
  by_cases hcompound : ∃ compound rest, t = opening compound :: rest
  · obtain ⟨compound, inside, rfl⟩ := hcompound
    cases depth with
    | zero =>
      rw [readValue_tooDeep]
      exact ⟨_, inside, rfl, .here⟩
    | succ depth =>
      -- the reader skips blanks inside, which the grammar has before elements and members
      have hblanks := blanks_skipSpace inside
      cases compound with
      | array =>
        by_cases hclose : ∃ rest, skipSpace inside = .char ']' :: rest
        · obtain ⟨rest, hrest⟩ := hclose
          rw [opening, readValue_emptyArray hrest]
          rw [hrest] at hblanks
          exact .emptyArray hblanks
        · rw [opening, readValue_array (not_exists.mp hclose)]
          refine (hitems depth (skipSpace inside)).map Json.array (fun vs rest hvs => ?_)
            fun refusal hlimit => ?_
          · exact .array (hvs.elements_of_blanks hblanks)
          · exact hlimit.outside fun start deeper u hstart hreaches =>
              .array (hstart.of_blanks hblanks) hreaches
      | object =>
        by_cases hclose : ∃ rest, skipSpace inside = .char '}' :: rest
        · obtain ⟨rest, hrest⟩ := hclose
          rw [opening, readValue_emptyObject hrest]
          rw [hrest] at hblanks
          exact .emptyObject hblanks
        · rw [opening, readValue_object (not_exists.mp hclose)]
          refine (hmembers depth (skipSpace inside)).map (fun pairs => Json.object (Keyed.ofPairs pairs))
            (fun pairs rest hpairs => ?_) fun refusal hlimit => ?_
          · exact .object (hpairs.members_of_blanks hblanks) (Keyed.collapses_ofPairs pairs)
          · exact hlimit.outside fun start deeper u hstart hreaches =>
              .object (hstart.of_blanks hblanks) hreaches
  · rw [readValue_scalar (not_exists.mp hstring) fun compound rest heq =>
      hcompound ⟨compound, rest, heq⟩]
    exact sound_readScalar depth t

/-- One step for elements, from values and elements with less fuel. -/
theorem sound_items_step {fuel : Nat}
    (hvalue : ∀ depth t, SoundValue depth t (readValue fuel depth t))
    (hitems : ∀ depth t, SoundItems depth t (readItems fuel depth t)) (depth : Nat) (t : Text) :
    SoundItems depth t (readItems (fuel + 1) depth t) := by
  have hfirst := hvalue depth t
  cases hread : readValue fuel depth t with
  | error refusal =>
    rw [hread] at hfirst
    rw [readItems_of_error hread]
    exact LimitFrom.mono (fun start hstart => hstart ▸ .first (.refl _)) hfirst
  | ok found =>
    obtain ⟨v, after⟩ := found
    rw [hread] at hfirst
    have helement : Spells t (.element v) (skipSpace after) :=
      .element (.refl t) hfirst (blanks_skipSpace after)
    -- by what follows the first element
    by_cases hclose : ∃ rest, skipSpace after = .char ']' :: rest
    · obtain ⟨rest, hrest⟩ := hclose
      rw [readItems_of_close hread hrest]
      rw [hrest] at helement
      exact .lastElement helement
    by_cases hcomma : ∃ next, skipSpace after = .char ',' :: next
    · obtain ⟨next, hnext⟩ := hcomma
      rw [readItems_of_comma hread hnext]
      rw [hnext] at helement
      have hblanks := blanks_skipSpace next
      exact (hitems depth (skipSpace next)).map (v :: ·)
        (fun vs rest hvs => .elements helement (hvs.elements_of_blanks hblanks))
        fun refusal => LimitFrom.mono fun start hstart =>
          .later helement (hstart.of_blanks hblanks)
    · rw [readItems_of_other hread (not_exists.mp hclose) (not_exists.mp hcomma)]
      trivial

/-- One step for members, from values and members with less fuel. -/
theorem sound_members_step {fuel : Nat}
    (hvalue : ∀ depth t, SoundValue depth t (readValue fuel depth t))
    (hmembers : ∀ depth t, SoundMembers depth t (readMembers fuel depth t)) (depth : Nat)
    (t : Text) : SoundMembers depth t (readMembers (fuel + 1) depth t) := by
  cases hname : readName t with
  | error refusal =>
    rw [readMembers_of_noName hname]
    obtain ⟨complaint, rest, rfl⟩ := readName_eq_error hname
    trivial
  | ok found =>
    obtain ⟨name, start⟩ := found
    have hspelled := name_of_readName hname
    have hbefore := blanks_skipSpace start
    have hfirst := hvalue depth (skipSpace start)
    cases hread : readValue fuel depth (skipSpace start) with
    | error refusal =>
      rw [hread] at hfirst
      rw [readMembers_of_error hname hread]
      exact LimitFrom.mono (fun u hu => hu ▸ .first hspelled hbefore) hfirst
    | ok found =>
      obtain ⟨v, after⟩ := found
      rw [hread] at hfirst
      have helement : Spells start (.element v) (skipSpace after) :=
        .element hbefore hfirst (blanks_skipSpace after)
      -- by what follows the first member
      by_cases hclose : ∃ rest, skipSpace after = .char '}' :: rest
      · obtain ⟨rest, hrest⟩ := hclose
        rw [readMembers_of_close hname hread hrest]
        rw [hrest] at helement
        exact .lastMember hspelled helement
      by_cases hcomma : ∃ next, skipSpace after = .char ',' :: next
      · obtain ⟨next, hnext⟩ := hcomma
        rw [readMembers_of_comma hname hread hnext]
        rw [hnext] at helement
        have hblanks := blanks_skipSpace next
        exact (hmembers depth (skipSpace next)).map ((name, v) :: ·)
          (fun pairs rest hpairs => .members hspelled helement (hpairs.members_of_blanks hblanks))
          fun refusal => LimitFrom.mono fun u hu =>
            .later hspelled helement (hu.of_blanks hblanks)
      · rw [readMembers_of_other hname hread (not_exists.mp hclose) (not_exists.mp hcomma)]
        trivial

/-- **Whatever the reader comes to is right.** -/
theorem sound (fuel : Nat) : ∀ depth t,
    SoundValue depth t (readValue fuel depth t) ∧ SoundItems depth t (readItems fuel depth t) ∧
      SoundMembers depth t (readMembers fuel depth t) := by
  -- all three at once, since each reader calls the others with one unit of fuel less
  induction fuel with
  | zero =>
    intro depth t
    rw [readValue_zero, readItems_zero, readMembers_zero]
    exact ⟨trivial, trivial, trivial⟩
  | succ fuel ih =>
    intro depth t
    have hvalue := fun depth t => (ih depth t).1
    have hitems := fun depth t => (ih depth t).2.1
    have hmembers := fun depth t => (ih depth t).2.2
    exact ⟨sound_value_step hitems hmembers depth t, sound_items_step hvalue hitems depth t,
      sound_members_step hvalue hmembers depth t⟩

end ModelProvision.Json.Grammar
