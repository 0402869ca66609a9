import ModelProvision.Proofs.Json.Completeness
import ModelProvision.Proofs.Json.Soundness

/-!
# Reading whole documents

* **`read_eq_ok_iff`**: a text within the limits is read as `v` exactly when it is a document that
  denotes `v`.
* **`hitsLimit_read_iff`**, **`read_oversized_iff`**: any other text is refused for a limit, and the
  refusal tells which.
-/

namespace ModelProvision.Json

namespace Grammar

/-! ## Documents -/

/-- A text whose first value opens it has no byte order mark in front. -/
theorem Opens.not_byteOrderMark {t start : Text} (h : Opens start) (hblanks : Blanks t start) :
    t.head? ≠ some (.char '\ufeff') := by
  obtain ⟨p, more, rfl, -, -, hp⟩ := h
  obtain ⟨s, rfl, hs⟩ := hblanks
  intro hhead
  -- the mark would be the first blank or begin the value, and it does neither
  cases s with
  | nil => exact hp (Option.some.inj hhead)
  | cons q s =>
    have hq := hs q List.mem_cons_self
    rw [Option.some.inj hhead, ← isSpace_iff] at hq
    exact absurd hq (by decide)

section Read

variable {t : Text} (hmark : t.head? ≠ some (.char '\ufeff'))
include hmark

/-- Without the mark a document is a value with nothing but blanks around it. -/
theorem read_of_head : read t = (do
    let (value, rest) ← readValue (2 * t.length + 2) maxDepth (skipSpace t)
    match skipSpace rest with
    | [] => return value
    | extra => .error (.malformed .extraData extra)) :=
  if_neg hmark

theorem read_of_error {refusal : Refusal}
    (h : readValue (2 * t.length + 2) maxDepth (skipSpace t) = .error refusal) :
    read t = .error refusal := by
  rw [read_of_head hmark, h]
  rfl

theorem read_of_end {after : Text} {v : Json}
    (h : readValue (2 * t.length + 2) maxDepth (skipSpace t) = .ok (v, after))
    (hafter : skipSpace after = []) : read t = .ok v := by
  rw [read_of_head hmark, h]
  simp only [bind, Except.bind, hafter]
  rfl

theorem read_of_extra {after : Text} {v : Json}
    (h : readValue (2 * t.length + 2) maxDepth (skipSpace t) = .ok (v, after))
    (hafter : skipSpace after ≠ []) : read t = .error (.malformed .extraData (skipSpace after)) := by
  rw [read_of_head hmark, h]
  simp only [bind, Except.bind]

end Read

/-- A document is read, up to the limits. -/
theorem reads_of_document {t : Text} {v : Json} (h : Document t v) : Reads (read t) v := by
  have hmark := h.opens_element.not_byteOrderMark (blanks_skipSpace t)
  have hends : Ends [] := fun p more heq => absurd heq (by simp)
  obtain ⟨after, hafter, hread⟩ := h.complete (2 * t.length + 2) maxDepth (by omega) hends
  rcases hread with hread | ⟨refusal, hlimit, hread⟩
  · exact .inl (read_of_end hmark hread hafter)
  · exact .inr ⟨refusal, hlimit, read_of_error hmark hread⟩

/-- What is read is a document, and a limit is exceeded where a value is due. -/
theorem sound_read (t : Text) :
    (∀ v, read t = .ok v → Document t v) ∧
      ∀ refusal, read t = .error refusal → LimitFrom (Blanks t) maxDepth refusal := by
  by_cases hmark : t.head? = some (.char '\ufeff')
  · have hread : read t = .error (.malformed .byteOrderMark t) := if_pos hmark
    rw [hread]
    exact ⟨fun v h => absurd h (by simp), fun refusal h => Except.error.inj h ▸ trivial⟩
  · have hblanks := blanks_skipSpace t
    have hsound := (sound (2 * t.length + 2) maxDepth (skipSpace t)).1
    cases hvalue : readValue (2 * t.length + 2) maxDepth (skipSpace t) with
    | error refusal =>
      rw [hvalue] at hsound
      rw [read_of_error hmark hvalue]
      refine ⟨fun v h => absurd h (by simp), fun refusal' h => ?_⟩
      rw [← Except.error.inj h]
      exact LimitFrom.mono (fun start hstart => hstart ▸ hblanks) hsound
    | ok found =>
      obtain ⟨v, after⟩ := found
      rw [hvalue] at hsound
      -- the value was read, and what follows it decides
      by_cases hafter : skipSpace after = []
      · rw [read_of_end hmark hvalue hafter]
        refine ⟨fun v' h => ?_, fun refusal h => absurd h (by simp)⟩
        rw [← Except.ok.inj h]
        exact .element hblanks hsound (hafter ▸ blanks_skipSpace after)
      · rw [read_of_extra hmark hvalue hafter]
        exact ⟨fun v h => absurd h (by simp), fun refusal h => Except.error.inj h ▸ trivial⟩

/-- A text that has something beyond a limit is refused for one. -/
theorem hitsLimit_read_of_meets {t u : Text} {deeper : Nat} (h : Meets t deeper u)
    (hexceeds : Exceeds maxDepth deeper u) : HitsLimit (read t) := by
  obtain ⟨start, hblanks, hreaches⟩ := h
  have hopens := hreaches.opens hexceeds
  have hlength := hblanks.suffix.length_le
  have hstart : skipSpace t = start := hblanks.skipSpace_eq.trans hopens.skipSpace_eq
  obtain ⟨refusal, hlimit, hread⟩ : HitsLimit (readValue (2 * t.length + 2) maxDepth start) :=
    hreaches.hitsLimit hexceeds (by omega)
  rw [← hstart] at hread
  exact ⟨refusal, hlimit, read_of_error (hopens.not_byteOrderMark hblanks) hread⟩

end Grammar

open Grammar

/-- Only documents are read, within the limits or not. -/
theorem document_of_read {t : Text} {v : Json} (h : read t = .ok v) : Document t v :=
  (sound_read t).1 v h

/-- A refusal for an integer is right … -/
theorem not_integersFit_of_read {t : Text} {digits : Nat}
    (h : read t = .error (.oversizedInteger digits)) : ¬ IntegersFit t := by
  intro hfits
  obtain ⟨hlong, start, deeper, u, hblanks, hreaches, hinteger⟩ := (sound_read t).2 _ h
  have := hfits deeper u digits ⟨start, hblanks, hreaches⟩ hinteger
  omega

/-- … and so is one for nesting. -/
theorem not_nestingFits_of_read {t : Text} {compound : Compound}
    (h : read t = .error (.tooDeep compound)) : ¬ NestingFits t := by
  intro hfits
  obtain ⟨start, rest, hblanks, hreaches⟩ := (sound_read t).2 _ h
  have := hfits maxDepth compound rest ⟨start, hblanks, hreaches⟩
  omega

/-- A limit is hit exactly by the texts that go beyond one. -/
theorem hitsLimit_read_iff {t : Text} :
    HitsLimit (read t) ↔ ¬ (IntegersFit t ∧ NestingFits t) := by
  constructor
  · rintro ⟨refusal, hlimit, hread⟩ ⟨hintegers, hnesting⟩
    cases refusal with
    | malformed => exact hlimit
    | oversizedInteger => exact not_integersFit_of_read hread hintegers
    | tooDeep => exact not_nestingFits_of_read hread hnesting
  · intro hfits
    -- were no limit hit, nothing that the text meets could exceed one
    by_contra hread
    refine hfits ⟨fun deeper u digits hmeets hinteger => ?_, fun deeper compound rest hmeets => ?_⟩
    · by_contra hlong
      exact hread (hitsLimit_read_of_meets hmeets (.inl ⟨digits, hinteger, by omega⟩))
    · by_contra hdeep
      exact hread (hitsLimit_read_of_meets hmeets (.inr ⟨by omega, compound, rest, rfl⟩))

/-- **Within the limits the reader is the grammar.** -/
theorem read_eq_ok_iff {t : Text} (hintegers : IntegersFit t) (hnesting : NestingFits t) {v : Json} :
    read t = .ok v ↔ Document t v := by
  refine ⟨document_of_read, fun h => ?_⟩
  rcases reads_of_document h with hread | hread
  · exact hread
  · exact absurd ⟨hintegers, hnesting⟩ (hitsLimit_read_iff.mp hread)

/-- Where the nesting fits, the refusal for a limit is for an integer. -/
theorem read_oversized_iff {t : Text} (hnesting : NestingFits t) :
    (∃ digits, read t = .error (.oversizedInteger digits)) ↔ ¬ IntegersFit t := by
  constructor
  · rintro ⟨digits, hread⟩
    exact not_integersFit_of_read hread
  · intro hintegers
    obtain ⟨refusal, hlimit, hread⟩ := hitsLimit_read_iff.mpr fun hfits => hintegers hfits.1
    cases refusal with
    | malformed => exact absurd hlimit id
    | oversizedInteger digits => exact ⟨digits, hread⟩
    | tooDeep => exact absurd hnesting (not_nestingFits_of_read hread)

/-- Within the limits the grammar is unambiguous. -/
theorem Grammar.Document.unique {t : Text} (hintegers : IntegersFit t) (hnesting : NestingFits t)
    {v v' : Json} (h : Document t v) (h' : Document t v') : v = v' := by
  rw [← read_eq_ok_iff hintegers hnesting] at h h'
  rw [h] at h'
  exact Except.ok.inj h'

/-- The keys of an object are distinct, however often the text repeats them. -/
theorem Grammar.Document.nodup_keys {t : Text} {members : List (Text × Json)}
    (h : Document t (.object members)) : (members.map Prod.fst).Nodup := by
  cases h with
  | element _ hvalue =>
    generalize hobject : Json.object members = v at hvalue
    -- by the rules for values, of which two spell objects
    cases hvalue with
    | literal hname => cases hname <;> simp at hobject
    | number _ hv => cases hv <;> simp at hobject
    | string | emptyArray | array => simp at hobject
    | emptyObject =>
      obtain rfl := Json.object.inj hobject
      exact List.nodup_nil
    | object hpairs hmembers =>
      obtain rfl := Json.object.inj hobject
      rw [Keyed.collapses_iff.mp hmembers]
      exact Keyed.nodup_keys_ofPairs _

/-! ## Texts that fit -/

namespace Grammar

theorem ElementAt.suffix {t u : Text} (h : ElementAt t u) : u <:+ t := by
  induction h with
  | first hblanks => exact hblanks.suffix
  | later helement _ ih => exact ih.trans ((List.suffix_cons ..).trans helement.suffix)

theorem MemberAt.suffix {t u : Text} (h : MemberAt t u) : u <:+ t := by
  induction h with
  | first hname hblanks =>
    exact hblanks.suffix.trans ((List.suffix_cons ..).trans hname.suffix)
  | later hname helement _ ih =>
    have hafterName := (List.suffix_cons ..).trans hname.suffix
    exact ih.trans ((List.suffix_cons ..).trans (helement.suffix.trans hafterName))

/-- The number of brackets and braces that open, those in strings included. -/
def openings (t : Text) : Nat :=
  t.countP fun p => p = opening .array ∨ p = opening .object

theorem openings_cons (compound : Compound) (t : Text) :
    openings (opening compound :: t) = openings t + 1 := by
  rw [openings, List.countP_cons_of_pos (by cases compound <;> simp), openings]

theorem openings_le_of_suffix {t u : Text} (h : u <:+ t) : openings u ≤ openings t :=
  h.sublist.countP_le

/-- Each level on the way is opened by a bracket. -/
theorem Reaches.openings_le {t u : Text} {depth : Nat} (h : Reaches t depth u) :
    depth + openings u ≤ openings t := by
  induction h with
  | here => omega
  | @array t start _ _ helement _ ih =>
    have hinside := openings_le_of_suffix helement.suffix
    have hbracket : openings (.char '[' :: t) = openings t + 1 := openings_cons .array t
    omega
  | @object t start _ _ hmember _ ih =>
    have hinside := openings_le_of_suffix hmember.suffix
    have hbrace : openings (.char '{' :: t) = openings t + 1 := openings_cons .object t
    omega

theorem Reaches.suffix {t u : Text} {depth : Nat} (h : Reaches t depth u) : u <:+ t := by
  induction h with
  | here => exact List.suffix_rfl
  | array helement _ ih => exact ih.trans (helement.suffix.trans (List.suffix_cons ..))
  | object hmember _ ih => exact ih.trans (hmember.suffix.trans (List.suffix_cons ..))

/-- So a text with few brackets does not nest too deep … -/
theorem nestingFits_of_openings_le {t : Text} (h : openings t ≤ maxDepth) : NestingFits t := by
  intro depth compound rest hmeets
  obtain ⟨start, hblanks, hreaches⟩ := hmeets
  have hstart := openings_le_of_suffix hblanks.suffix
  have hdepth := hreaches.openings_le
  rw [openings_cons] at hdepth
  omega

/-- … and a short text has no integer that is too long. -/
theorem integersFit_of_length_le {t : Text} (h : t.length ≤ 4300) : IntegersFit t := by
  intro depth u digits hmeets hinteger
  obtain ⟨start, hblanks, hreaches⟩ := hmeets
  have hlength := (hreaches.suffix.trans hblanks.suffix).length_le
  -- the digits are part of the text
  obtain ⟨n, rest, hnumber, -, -, -, rfl⟩ := hinteger.number
  have hwhole := hnumber.length_whole_le
  omega

end Grammar

end ModelProvision.Json
