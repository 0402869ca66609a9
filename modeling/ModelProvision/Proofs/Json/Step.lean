import ModelProvision.Proofs.Json.Scanning

/-!
# One step of the reader

What the three readers do with a text that starts in a given way: one lemma for each branch that
still has fuel. Proofs about whole runs use these and do not open the readers.

What a text starts with is mostly known from the grammar: `Opens` says what the first code point of
a value can not be, `Ends` what no value is followed by, and what a rule of the grammar leaves over is
an end of the text it started with (the `suffix` lemmas), so fuel is measured against lengths.
-/

namespace ModelProvision.Json.Grammar

/-! ## Rests are ends of the text -/

theorem suffix_cons_cons (p q : CodePoint) (t : Text) : t <:+ p :: q :: t :=
  List.suffix_append [p, q] t

theorem CodeUnit.suffix {t rest : Text} {unit : Nat} (h : CodeUnit t unit rest) : rest <:+ t := by
  cases h with
  | @mk a b c d => exact List.suffix_append [a, b, c, d] rest

theorem Content.suffix {t ps rest : Text} (h : Content t ps rest) : rest <:+ t := by
  induction h with
  | close => exact List.suffix_cons ..
  | plain _ _ _ _ ih => exact ih.trans (List.suffix_cons ..)
  | short _ _ ih => exact ih.trans (suffix_cons_cons ..)
  | unit hunit _ _ _ ih => exact ih.trans (hunit.suffix.trans (suffix_cons_cons ..))
  | pair hhigh hlow _ _ ih =>
    have hsecond := hlow.suffix.trans ((suffix_cons_cons ..).trans hhigh.suffix)
    exact ih.trans (hsecond.trans (suffix_cons_cons ..))

theorem Digits.suffix {t ds rest : Text} (h : Digits t ds rest) : rest <:+ t :=
  h.1 ▸ List.suffix_append ds rest

theorem Minus.suffix {t rest : Text} {negative : Bool} (h : Minus t negative rest) : rest <:+ t := by
  cases h with
  | present => exact List.suffix_cons ..
  | absent => exact List.suffix_rfl

theorem Number.suffix {t rest : Text} {n : Numeral} (h : Number t n rest) : rest <:+ t := by
  cases h with
  | @mk _ _ _ _ _ t₁ t₂ t₃ _ hminus hwhole hfraction hexponent =>
    -- part by part, each leaves an end of what it started with
    have hafterWhole : t₂ <:+ t₁ := by
      cases hwhole with
      | zero => exact List.suffix_cons ..
      | digits _ hdigits => exact hdigits.suffix
    have hafterFraction : t₃ <:+ t₂ := by
      cases hfraction with
      | absent => exact List.suffix_rfl
      | present hdigits => exact hdigits.suffix.trans (List.suffix_cons ..)
    have hafterExponent : rest <:+ t₃ := by
      cases hexponent with
      | absent => exact List.suffix_rfl
      | @present mark _ signed digits _ _ _ hsign hdigits =>
        have hunsigned : digits <:+ signed := by
          cases hsign with
          | minus | plus => exact List.suffix_cons ..
          | absent => exact List.suffix_rfl
        exact hdigits.suffix.trans (hunsigned.trans (List.suffix_cons ..))
    exact hafterExponent.trans (hafterFraction.trans (hafterWhole.trans hminus.suffix))

/-- A number has no more digits than the text is long. -/
theorem Number.length_whole_le {t rest : Text} {n : Numeral} (h : Number t n rest) :
    n.whole.length ≤ t.length := by
  cases h with
  | mk hminus hwhole =>
    have hunsigned := hminus.suffix.length_le
    cases hwhole with
    | zero => exact Nat.le_trans (Nat.le_add_left ..) hunsigned
    | digits _ hdigits =>
      rw [hdigits.1, List.length_append] at hunsigned
      exact Nat.le_trans (Nat.le_add_right ..) hunsigned

theorem Name.suffix {t name rest : Text} (h : Name t name rest) : rest <:+ t := by
  obtain ⟨content, after, hbefore, hcontent, hafter⟩ := h
  have hcontents : content <:+ t := (List.suffix_cons ..).trans hbefore.suffix
  exact hafter.suffix.trans (hcontent.suffix.trans hcontents)

theorem Spells.suffix {t rest : Text} {phrase : Phrase} (h : Spells t phrase rest) :
    rest <:+ t := by
  induction h with
  | literal => exact List.suffix_append ..
  | number hnumber _ => exact hnumber.suffix
  | string hcontent => exact hcontent.suffix.trans (List.suffix_cons ..)
  | emptyArray hblanks | emptyObject hblanks =>
    exact (List.suffix_cons ..).trans (hblanks.suffix.trans (List.suffix_cons ..))
  | array _ ih | object _ _ ih =>
    exact (List.suffix_cons ..).trans (ih.trans (List.suffix_cons ..))
  | element hbefore _ hafter ih => exact hafter.suffix.trans (ih.trans hbefore.suffix)
  | lastElement _ ih => exact ih
  | elements _ _ ih ih' => exact ih'.trans ((List.suffix_cons ..).trans ih)
  | lastMember hname _ ih => exact ih.trans ((List.suffix_cons ..).trans hname.suffix)
  | members hname _ _ ih ih' =>
    have hafterName := (List.suffix_cons ..).trans hname.suffix
    exact ih'.trans ((List.suffix_cons ..).trans (ih.trans hafterName))

/-! ## What values start and end with -/

/-- The text goes on with something that is neither blank nor a closing bracket nor a byte order
mark. -/
def Opens (t : Text) : Prop :=
  ∃ p more, t = p :: more ∧ isSpace p = false ∧ p ≠ .char ']' ∧ p ≠ .char '\ufeff'

/-- What may follow a value. -/
def Ends (rest : Text) : Prop :=
  ∀ p more, rest = p :: more →
    Space p ∨ p = .char ',' ∨ p = .char ']' ∨ p = .char '}'

theorem Space.cases {p : CodePoint} (h : Space p) :
    p = .char ' ' ∨ p = .char '\t' ∨ p = .char '\n' ∨ p = .char '\r' := by
  rw [← isSpace_iff] at h
  simpa [isSpace, or_assoc] using h

/-- Nothing that follows a value could go on a number. -/
theorem Ends.stops {rest : Text} (h : Ends rest) : Stops rest := by
  -- by the first code point: it is no digit, no point and no mark of an exponent
  have hhead : ∀ p more, rest = p :: more →
      ¬ isDigit p ∧ p ≠ .char '.' ∧ ¬ (p = .char 'e' ∨ p = .char 'E') := by
    intro p more heq
    rcases h p more heq with hspace | rfl | rfl | rfl
    · rcases hspace.cases with rfl | rfl | rfl | rfl <;> decide
    · decide
    · decide
    · decide
  refine ⟨fun p more heq => mt isDigit_iff.mpr (hhead p more heq).1, fun ds more hfraction => ?_,
    fun e more hexponent => ?_⟩
  · cases hfraction with
    | absent => rfl
    | present => exact absurd rfl (hhead _ _ rfl).2.1
  · cases hexponent with
    | absent => rfl
    | present hmark => exact absurd hmark (hhead _ _ rfl).2.2

/-- Blanks may come before what follows. -/
theorem Ends.of_blanks {t rest : Text} (hblanks : Blanks t rest) (h : Ends rest) : Ends t := by
  obtain ⟨s, rfl, hs⟩ := hblanks
  cases s with
  | nil => exact h
  | cons q s =>
    intro p more heq
    obtain ⟨rfl, -⟩ := List.cons.inj heq
    exact .inl (hs _ List.mem_cons_self)

/-- A comma and the closing brackets end a value. -/
theorem ends_cons {p : CodePoint} (hp : p = .char ',' ∨ p = .char ']' ∨ p = .char '}')
    (rest : Text) : Ends (p :: rest) := by
  intro q more heq
  obtain ⟨rfl, -⟩ := List.cons.inj heq
  exact .inr hp

/-- There is nothing to skip in front of a value. -/
theorem Opens.skipSpace_eq {t : Text} (h : Opens t) : skipSpace t = t := by
  obtain ⟨p, more, rfl, hp, -⟩ := h
  exact skipSpace_cons hp more

/-- A digit opens a value … -/
theorem opens_of_isDigit {p : CodePoint} (hp : isDigit p) (more : Text) : Opens (p :: more) := by
  refine ⟨p, more, rfl, ?_, ?_, ?_⟩
  · by_contra hspace
    have hcases := (isSpace_iff.mp (by simpa using hspace)).cases
    rcases hcases with rfl | rfl | rfl | rfl <;> exact absurd hp (by decide)
  · rintro rfl
    exact absurd hp (by decide)
  · rintro rfl
    exact absurd hp (by decide)

/-- … as every number does … -/
theorem Number.opens {t rest : Text} {n : Numeral} (h : Number t n rest) : Opens t := by
  obtain ⟨p, more, rfl, hp | ⟨rfl, -⟩⟩ := h.head
  · exact opens_of_isDigit hp more
  · exact ⟨_, _, rfl, by decide, by decide, by decide⟩

/-- … and all other values. -/
theorem Spells.opens {t rest : Text} {v : Json} (h : Spells t (.value v) rest) : Opens t := by
  cases h with
  | literal hname =>
    obtain ⟨p, q, more, rfl, hp, -⟩ := hname.head
    -- names start with a letter or a minus
    have hinitials : ∀ p ∈ initials,
        isSpace p = false ∧ p ≠ .char ']' ∧ p ≠ .char '\ufeff' := by decide
    exact ⟨p, _, rfl, hinitials p hp⟩
  | number hnumber _ => exact hnumber.opens
  | string | emptyArray | array | emptyObject | object =>
    exact ⟨_, _, rfl, by decide, by decide, by decide⟩

/-- Of an element the blanks before it are skipped. -/
theorem Spells.opens_element {t rest : Text} {v : Json} (h : Spells t (.element v) rest) :
    Opens (skipSpace t) := by
  cases h with
  | element hbefore hvalue hafter =>
    rw [hbefore.skipSpace_eq, hvalue.opens.skipSpace_eq]
    exact hvalue.opens

/-- What opens a value closes no array … -/
theorem Opens.ne_close {t : Text} (h : Opens t) (more : Text) :
    t ≠ .char ']' :: more := by
  obtain ⟨p, t, rfl, -, hclose, -⟩ := h
  exact fun heq => hclose (List.cons.inj heq).1

/-- … and what opens a name closes no object. -/
theorem Name.ne_close {t name rest : Text} (h : Name t name rest) (more : Text) :
    skipSpace t ≠ .char '}' :: more := by
  obtain ⟨content, after, hbefore, -, -⟩ := h
  rw [hbefore.skipSpace_eq, skipSpace_cons (by decide)]
  exact fun heq => absurd (List.cons.inj heq).1 (by decide)

/-- Elements are no empty array … -/
theorem Spells.ne_close_elements {t rest : Text} {vs : List Json}
    (h : Spells t (.elements vs) rest) (more : Text) : skipSpace t ≠ .char ']' :: more := by
  cases h with
  | lastElement helement | elements helement => exact helement.opens_element.ne_close more

/-- … and members are no empty object. -/
theorem Spells.ne_close_members {t rest : Text} {pairs : List (Text × Json)}
    (h : Spells t (.members pairs) rest) (more : Text) : skipSpace t ≠ .char '}' :: more := by
  cases h with
  | lastMember hname | members hname => exact hname.ne_close more

/-! ## One step of the reader -/

/-- A quote begins a string. -/
theorem readValue_string (fuel depth : Nat) (t : Text) :
    readValue (fuel + 1) depth (.char '"' :: t) =
      (readString (.char '"' :: t) t).map fun found => (.string found.1, found.2) := by
  rw [readValue]
  cases readString (.char '"' :: t) t <;> rfl

/-- Where no level is left a bracket is refused, whatever is inside. -/
theorem readValue_tooDeep (fuel : Nat) (compound : Compound) (t : Text) :
    readValue (fuel + 1) 0 (opening compound :: t) = .error (.tooDeep compound) := by
  cases compound <;> rfl

/-- An array may close at once … -/
theorem readValue_emptyArray {t rest : Text} (h : skipSpace t = .char ']' :: rest)
    (fuel depth : Nat) :
    readValue (fuel + 1) (depth + 1) (.char '[' :: t) = .ok (.array [], rest) := by
  simp only [readValue, h]

/-- … or have elements, one level further down. -/
theorem readValue_array {t : Text} (h : ∀ rest, skipSpace t ≠ .char ']' :: rest)
    (fuel depth : Nat) :
    readValue (fuel + 1) (depth + 1) (.char '[' :: t) =
      (readItems fuel depth (skipSpace t)).map fun found => (.array found.1, found.2) := by
  simp only [readValue]
  cases readItems fuel depth (skipSpace t) <;> rfl

/-- An object may close at once … -/
theorem readValue_emptyObject {t rest : Text} (h : skipSpace t = .char '}' :: rest)
    (fuel depth : Nat) :
    readValue (fuel + 1) (depth + 1) (.char '{' :: t) = .ok (.object [], rest) := by
  simp only [readValue, h]

/-- … or have members, of which repeated keys collapse. -/
theorem readValue_object {t : Text} (h : ∀ rest, skipSpace t ≠ .char '}' :: rest)
    (fuel depth : Nat) :
    readValue (fuel + 1) (depth + 1) (.char '{' :: t) =
      (readMembers fuel depth (skipSpace t)).map
        fun found => (.object (Keyed.ofPairs found.1), found.2) := by
  simp only [readValue]
  cases readMembers fuel depth (skipSpace t) <;> rfl

/-- Everything else stands alone. -/
theorem readValue_scalar {t : Text} (hstring : ∀ rest, t ≠ .char '"' :: rest)
    (hcompound : ∀ compound rest, t ≠ opening compound :: rest) (fuel depth : Nat) :
    readValue (fuel + 1) depth t = readScalar t := by
  have harray := hcompound .array
  have hobject := hcompound .object
  simp only [opening] at harray hobject
  simp only [readValue]

/-- An element that is refused refuses the list … -/
theorem readItems_of_error {fuel depth : Nat} {t : Text} {refusal : Refusal}
    (h : readValue fuel depth t = .error refusal) :
    readItems (fuel + 1) depth t = .error refusal := by
  rw [readItems, h]
  rfl

/-- … a closing bracket after one ends it … -/
theorem readItems_of_close {fuel depth : Nat} {t after rest : Text} {v : Json}
    (h : readValue fuel depth t = .ok (v, after)) (hafter : skipSpace after = .char ']' :: rest) :
    readItems (fuel + 1) depth t = .ok ([v], rest) := by
  rw [readItems, h]
  simp only [bind, Except.bind, hafter]
  rfl

/-- … a comma goes on with the next … -/
theorem readItems_of_comma {fuel depth : Nat} {t after next : Text} {v : Json}
    (h : readValue fuel depth t = .ok (v, after)) (hafter : skipSpace after = .char ',' :: next) :
    readItems (fuel + 1) depth t =
      (readItems fuel depth (skipSpace next)).map fun found => (v :: found.1, found.2) := by
  rw [readItems, h]
  simp only [bind, Except.bind, hafter]
  cases readItems fuel depth (skipSpace next) <;> rfl

/-- … and anything else is malformed. -/
theorem readItems_of_other {fuel depth : Nat} {t after : Text} {v : Json}
    (h : readValue fuel depth t = .ok (v, after))
    (hclose : ∀ rest, skipSpace after ≠ .char ']' :: rest)
    (hcomma : ∀ next, skipSpace after ≠ .char ',' :: next) :
    readItems (fuel + 1) depth t = .error (.malformed .expectingComma (skipSpace after)) := by
  rw [readItems, h]
  simp only [bind, Except.bind]

/-- The name of a member and the colon after it. -/
def readName : Text → Except Refusal (Text × Text)
  | .char '"' :: content =>
    match readString (.char '"' :: content) content with
    | .error refusal => .error refusal
    | .ok (name, after) =>
      match skipSpace after with
      | .char ':' :: start => .ok (name, start)
      | other => .error (.malformed .expectingColon other)
  | t => .error (.malformed .expectingName t)

/-- A name by the grammar is read with its colon … -/
theorem readName_of_name {t name start : Text} (h : Name t name (.char ':' :: start)) :
    readName (skipSpace t) = .ok (name, start) := by
  obtain ⟨content, after, hbefore, hcontent, hafter⟩ := h
  have hstart : skipSpace t = .char '"' :: content :=
    hbefore.skipSpace_eq.trans (skipSpace_cons (by decide) content)
  have hcolon : skipSpace after = .char ':' :: start :=
    hafter.skipSpace_eq.trans (skipSpace_cons (by decide) start)
  rw [hstart, readName, readString_of_content hcontent]
  simp only [hcolon]

/-- … and what is read is one … -/
theorem name_of_readName {t name start : Text} (h : readName t = .ok (name, start)) :
    Name t name (.char ':' :: start) := by
  unfold readName at h
  split at h
  · next content =>
    split at h
    · exact absurd h (by simp)
    · next name' after hcontent =>
      split at h
      · next hcolon =>
        obtain ⟨rfl, rfl⟩ := Prod.mk.inj (Except.ok.inj h)
        refine ⟨content, after, .refl _, content_of_readString hcontent, ?_⟩
        rw [← hcolon]
        exact blanks_skipSpace after
      · exact absurd h (by simp)
  · exact absurd h (by simp)

/-- … and any other text is malformed. -/
theorem readName_eq_error {t : Text} {refusal : Refusal} (h : readName t = .error refusal) :
    ∃ complaint rest, refusal = .malformed complaint rest := by
  unfold readName at h
  split at h
  · split at h
    · next hcontent =>
      rw [Except.error.injEq] at h
      subst h
      exact readString_eq_error hcontent
    · split at h
      · exact absurd h (by simp)
      · exact ⟨_, _, (Except.error.inj h).symm⟩
  · exact ⟨_, _, (Except.error.inj h).symm⟩

/-- One step of the reader for members, with the name and its colon taken together. -/
theorem readMembers_eq (fuel depth : Nat) (t : Text) :
    readMembers (fuel + 1) depth t = (do
      let (name, start) ← readName t
      let (value, after) ← readValue fuel depth (skipSpace start)
      match skipSpace after with
      | .char '}' :: rest => return ([(name, value)], rest)
      | .char ',' :: next =>
        let (pairs, rest) ← readMembers fuel depth (skipSpace next)
        return ((name, value) :: pairs, rest)
      | other => .error (.malformed .expectingComma other)) := by
  -- by whether there is a name, and then a colon; the rest is the same text twice
  by_cases hquote : ∃ content, t = .char '"' :: content
  · obtain ⟨content, rfl⟩ := hquote
    simp only [readMembers, readName]
    cases readString (.char '"' :: content) content with
    | error refusal => rfl
    | ok found =>
      by_cases hcolon : ∃ start, skipSpace found.2 = .char ':' :: start
      · obtain ⟨start, hstart⟩ := hcolon
        simp only [bind, Except.bind]
        generalize skipSpace found.2 = after at hstart ⊢
        subst hstart
        rfl
      · have hother := not_exists.mp hcolon
        simp only [bind, Except.bind]
  · have hother := not_exists.mp hquote
    simp only [readMembers, readName]
    rfl

section Members

variable {fuel depth : Nat} {t name start after : Text} {v : Json}

/-- A member without a name refuses the list … -/
theorem readMembers_of_noName {refusal : Refusal} (h : readName t = .error refusal) :
    readMembers (fuel + 1) depth t = .error refusal := by
  rw [readMembers_eq, h]
  rfl

variable (hname : readName t = .ok (name, start))
include hname

/-- … and so does one whose value is refused … -/
theorem readMembers_of_error {refusal : Refusal}
    (h : readValue fuel depth (skipSpace start) = .error refusal) :
    readMembers (fuel + 1) depth t = .error refusal := by
  rw [readMembers_eq, hname]
  simp only [bind, Except.bind, h]

variable (h : readValue fuel depth (skipSpace start) = .ok (v, after))
include h

/-- … a closing brace after one ends it … -/
theorem readMembers_of_close {rest : Text} (hafter : skipSpace after = .char '}' :: rest) :
    readMembers (fuel + 1) depth t = .ok ([(name, v)], rest) := by
  rw [readMembers_eq, hname]
  simp only [bind, Except.bind, h, hafter]
  rfl

/-- … a comma goes on with the next … -/
theorem readMembers_of_comma {next : Text} (hafter : skipSpace after = .char ',' :: next) :
    readMembers (fuel + 1) depth t =
      (readMembers fuel depth (skipSpace next)).map
        fun found => ((name, v) :: found.1, found.2) := by
  rw [readMembers_eq, hname]
  simp only [bind, Except.bind, h, hafter]
  cases readMembers fuel depth (skipSpace next) <;> rfl

/-- … and anything else is malformed. -/
theorem readMembers_of_other (hclose : ∀ rest, skipSpace after ≠ .char '}' :: rest)
    (hcomma : ∀ next, skipSpace after ≠ .char ',' :: next) :
    readMembers (fuel + 1) depth t = .error (.malformed .expectingComma (skipSpace after)) := by
  rw [readMembers_eq, hname]
  simp only [bind, Except.bind, h]

end Members

end ModelProvision.Json.Grammar
