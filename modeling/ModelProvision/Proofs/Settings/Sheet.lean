import ModelProvision.Proofs.Settings.Decision
import ModelProvision.Proofs.Settings.Scanning

/-!
# Environment files as they are written

A sheet is an environment file before it is text: lines of four kinds and the ends between them. A
line that assigns holds one setting, a name of it in any letter case, and a value between single
quotes; the other lines say nothing. The parts of a sheet carry what makes them fit together, so
there are no others: blanks are blanks of one line, a remark does not end its line, a name names its
setting, and a value stands for itself (`Plain`).

**`Sheet.bindings_text`**: the bindings of the text of a sheet are its entries, in order, whatever
stands between them and whichever ends the lines have. It is shown line by line
(`Line.bindings_text_append`). Lines depend on each other in one thing only: a carriage return and a
line feed after it are one end together (`LineEnd.unifyLineEnds_text_append`).
-/

namespace ModelProvision

open LetterCase

/-! ## Names in any letter case

Only letters change with the case, and every letter may stand in a name. -/

namespace DotEnv

/-- Capital letters may stand in a name … -/
theorem isKeyPoint_of_capital {p : CodePoint} (hlow : 0x41 ≤ p.toNat) (hhigh : p.toNat ≤ 0x5a) :
    isKeyPoint p := by
  have hequals : p ≠ '=' := by
    rintro rfl
    exact absurd hlow (by decide)
  have hhash : p ≠ '#' := by
    rintro rfl
    exact absurd hlow (by decide)
  have hblank : ¬ Blank.isBlank p := by
    simp only [Blank.isBlank, Bool.or_eq_true, Bool.and_eq_true, decide_eq_true_eq, beq_iff_eq]
    omega
  simp [isKeyPoint, hequals, hhash, hblank]

/-- … and only these and the Kelvin sign, which may stand in one too, have another small form … -/
theorem small_eq_or_isKeyPoint (p : CodePoint) : small p = p ∨ isKeyPoint p := by
  cases p with
  | surrogate n => exact .inl rfl
  | char c =>
    -- the Kelvin sign is no letter of the alphabet, but its small form is `k`
    by_cases hkelvin : c = '\u212a'
    · subst hkelvin
      exact .inr (by decide)
    · by_cases hcapital : c.val ≥ 'A'.val ∧ c.val ≤ 'Z'.val
      · exact .inr (isKeyPoint_of_capital hcapital.1 hcapital.2)
      · have hlower : c.toLower = c := dif_neg hcapital
        have hsmall : small (.char c) = .char c.toLower := if_neg hkelvin
        exact .inl (by rw [hsmall, hlower])

/-- … so a name in any letter case is one. -/
theorem isKeyPoint_of_small {p : CodePoint} (h : isKeyPoint (small p)) : isKeyPoint p := by
  rcases small_eq_or_isKeyPoint p with hsame | hp
  · rwa [hsame] at h
  · exact hp

end DotEnv

namespace Field

variable {f f' : Field} {key : Text}

/-- The names of settings are spelled with code points of names, and none begins like the word
`export`. -/
theorem Admits.spelled (h : f.Admits key) :
    key ≠ [] ∧ key.head? ≠ some (.char 'e') ∧ ∀ p ∈ key, DotEnv.isKeyPoint p ∧ p ≠ '\'' := by
  rcases h with rfl | ⟨-, rfl⟩
  · cases f <;> decide
  · decide

/-- No two settings share a name. -/
theorem Admits.unique (h : f.Admits key) (h' : f'.Admits key) : f = f' := by
  have hfind : ∀ f : Field, ∀ name ∈ f.names,
      Scope.injector.fields.find? (fun f => name ∈ f.names) = some f := by
    intro f
    cases f <;> decide
  rw [← mem_names_iff] at h h'
  exact Option.some.inj ((hfind f key h).symm.trans (hfind f' key h'))

end Field

namespace DotEnv

open Blank

/-! ## Sheets -/

/-- White space within a line. -/
abbrev Blanks := {t : Text // ∀ p ∈ t, isInlineBlank p}

theorem Blanks.noReturn (blanks : Blanks) : .char '\r' ∉ blanks.val :=
  fun h => absurd (blanks.property _ h) (by decide)

/-- A text without line ends. -/
abbrev LineText := {t : Text // .char '\n' ∉ t ∧ .char '\r' ∉ t}

/-- A text that stands for itself between single quotes. It may have line feeds. -/
structure Plain (t : Text) : Prop where
  noQuote : .char '\'' ∉ t
  noBackslash : .char '\\' ∉ t
  noReturn : .char '\r' ∉ t
  noReference : ¬ opening <:+: t

/-- A line that assigns a value to a setting. -/
structure Entry where
  field : Field
  name : Text
  value : Text
  indent : Blanks
  /-- The blanks after the word `export`, if it stands before the name. -/
  exported : Option {blanks : Blanks // blanks.val ≠ []}
  gap : Blanks
  remark : Option LineText
  /-- The name is one of the setting's, in any letter case. -/
  admits : field.Admits (toSmall name)
  plain : Plain value

namespace Entry

/-- What stands before the name. -/
def lead (e : Entry) : Text :=
  match e.exported with
  | none => []
  | some blanks => "export" ++ blanks.val.val

/-- The remark after the value and the gap. -/
def trail (e : Entry) : Text :=
  match e.remark with
  | none => []
  | some remark => .char '#' :: remark.val

def text (e : Entry) : Text :=
  e.indent.val ++ (e.lead ++ (e.name ++ .char '=' :: .char '\'' ::
    (e.value ++ .char '\'' :: (e.gap.val ++ e.trail))))

def binding (e : Entry) : Binding := ⟨e.name, some e.value⟩

end Entry

/-- A line without its end. -/
inductive Line where
  | blank (blanks : Blanks)
  | comment (indent : Blanks) (remark : LineText)
  /-- A line that starts with `=`, as no binding does. -/
  | malformed (indent : Blanks) (rest : LineText)
  | assigned (e : Entry)

namespace Line

def text : Line → Text
  | blank blanks => blanks.val
  | comment indent remark => indent.val ++ .char '#' :: remark.val
  | malformed indent rest => indent.val ++ .char '=' :: rest.val
  | assigned e => e.text

def assignment? : Line → Option Entry
  | assigned e => some e
  | _ => none

end Line

inductive LineEnd where
  | lineFeed
  | carriageReturn
  | both
  deriving DecidableEq, Repr

def LineEnd.text : LineEnd → Text
  | lineFeed => [.char '\n']
  | carriageReturn => [.char '\r']
  | both => [.char '\r', .char '\n']

/-- An environment file: lines with their ends, and what stands after the last end. -/
structure Sheet where
  lines : List (Line × LineEnd)
  last : Line

namespace Sheet

def text (s : Sheet) : Text :=
  (s.lines.flatMap fun l => l.1.text ++ l.2.text) ++ s.last.text

def entries (s : Sheet) : List Entry :=
  (s.lines.map Prod.fst ++ [s.last]).filterMap Line.assignment?

end Sheet

/-! ## Entries

What stands before the name is skipped, and the line is finished after the value. -/

namespace Entry

variable (e : Entry) {rest : Text}

/-- An entry has a name … -/
theorem name_ne_nil : e.name ≠ [] := by
  intro hnil
  have hne := e.admits.spelled.1
  rw [hnil] at hne
  exact hne rfl

/-- … of code points that a name may have … -/
theorem isKeyPoint_of_mem_name {p : CodePoint} (hp : p ∈ e.name) : isKeyPoint p ∧ p ≠ '\'' := by
  obtain ⟨hpoint, hquote⟩ := e.admits.spelled.2.2 (small p) (List.mem_map_of_mem hp)
  refine ⟨isKeyPoint_of_small hpoint, ?_⟩
  rintro rfl
  exact hquote rfl

/-- … that does not begin like the word `export` … -/
theorem head?_name : e.name.head? ≠ some (.char 'e') := by
  intro hhead
  apply e.admits.spelled.2.1
  rw [toSmall, List.head?_map, hhead]
  rfl

/-- … and has no blanks. -/
theorem not_isBlank_of_mem_name {p : CodePoint} (hp : p ∈ e.name) : ¬ isBlank p := by
  have hpoint := (e.isKeyPoint_of_mem_name hp).1
  simp only [isKeyPoint, Bool.and_eq_true, Bool.not_eq_true'] at hpoint
  simpa using hpoint.2

/-- Skipping the word leads to the name, whether the word is there or not. -/
theorem skipExport_lead : skipExport (e.lead ++ (e.name ++ rest)) = e.name ++ rest := by
  obtain ⟨p, name, hname⟩ := List.exists_cons_of_ne_nil e.name_ne_nil
  unfold lead
  -- with the word or without it
  split
  · apply skipExport_of_head
    have hhead := e.head?_name
    rwa [hname] at hhead ⊢
  · next blanks _ =>
    rw [List.append_assoc]
    apply skipExport_exported blanks.property blanks.val.property
    intro q hq hblank
    rw [hname] at hq
    obtain rfl := Option.some.inj hq
    have hmem : p ∈ e.name := hname ▸ List.mem_cons_self
    exact e.not_isBlank_of_mem_name hmem (isBlank_of_isInlineBlank hblank)

/-- Gap and remark finish the line. -/
theorem finishLine?_trail (h : AtLineEnd rest) :
    finishLine? (e.gap.val ++ (e.trail ++ rest)) = some (skipLine rest) := by
  rw [finishLine?_append e.gap.property]
  unfold trail
  split
  · exact h.finishLine?_eq
  · next remark _ => exact finishLine?_remark remark.property.1

/-- What follows the indent is not blank. -/
theorem not_isBlank_of_head (p : CodePoint) (hp : p ∈ (e.lead ++ (e.name ++ rest)).head?) :
    ¬ isBlank p := by
  unfold lead at hp
  split at hp
  · obtain ⟨q, name, hname⟩ := List.exists_cons_of_ne_nil e.name_ne_nil
    rw [hname] at hp
    obtain rfl := Option.some.inj hp
    exact e.not_isBlank_of_mem_name (hname ▸ List.mem_cons_self)
  · obtain rfl : CodePoint.char 'e' = p := Option.some.inj hp
    decide

/-- An entry binds its value, whatever follows on the next line. -/
theorem bindings_text_append (h : AtLineEnd rest) :
    bindings (e.text ++ rest) = e.binding :: bindings rest := by
  unfold text
  simp only [List.append_assoc, List.cons_append]
  rw [bindings_append_of_blanks e.indent.property,
    bindings_assignment e.not_isBlank_of_head e.skipExport_lead e.name_ne_nil
      (fun _ hp => e.isKeyPoint_of_mem_name hp) e.plain.noQuote e.plain.noBackslash
      (e.finishLine?_trail h),
    h.bindings_skipLine]
  rfl

/-- An entry has no carriage return, so unifying line ends leaves it alone. -/
theorem noReturn_text : .char '\r' ∉ e.text := by
  have hlead : .char '\r' ∉ e.lead := by
    unfold lead
    split
    · exact List.not_mem_nil
    · next blanks _ =>
      rw [List.mem_append, not_or]
      exact ⟨by decide, blanks.val.noReturn⟩
  have htrail : .char '\r' ∉ e.trail := by
    unfold trail
    split
    · exact List.not_mem_nil
    · next remark _ => simpa using remark.property.2
  have hname : .char '\r' ∉ e.name := fun h => e.not_isBlank_of_mem_name h (by decide)
  simp [text, e.indent.noReturn, hlead, hname, e.plain.noReturn, e.gap.noReturn, htrail]

end Entry

/-! ## Lines and their ends -/

namespace Line

variable {rest : Text}

/-- Only a line that assigns binds anything. -/
theorem bindings_text_append (l : Line) (h : AtLineEnd rest) :
    bindings (l.text ++ rest) = l.assignment?.toList.map Entry.binding ++ bindings rest := by
  cases l with
  | blank blanks => exact bindings_append_of_blanks blanks.property
  | comment indent remark =>
    show bindings ((indent.val ++ .char '#' :: remark.val) ++ rest) = bindings rest
    rw [List.append_assoc, bindings_append_of_blanks indent.property, List.cons_append,
      bindings_comment remark.property.1, h.bindings_skipLine]
  | malformed indent t =>
    show bindings ((indent.val ++ .char '=' :: t.val) ++ rest) = bindings rest
    rw [List.append_assoc, bindings_append_of_blanks indent.property, List.cons_append,
      bindings_malformed t.property.1, h.bindings_skipLine]
  | assigned e => exact e.bindings_text_append h

theorem noReturn_text (l : Line) : .char '\r' ∉ l.text := by
  cases l with
  | blank blanks => exact blanks.noReturn
  | comment indent remark => simp [text, indent.noReturn, remark.property.2]
  | malformed indent t => simp [text, indent.noReturn, t.property.2]
  | assigned e => exact e.noReturn_text

end Line

/-- Every line end is read as a line feed. A carriage return also takes the line feed after it,
which binds nothing by itself. -/
theorem LineEnd.unifyLineEnds_text_append (lineEnd : LineEnd) (t : Text) :
    ∃ rest, unifyLineEnds (lineEnd.text ++ t) = .char '\n' :: rest ∧
      bindings rest = bindings (unifyLineEnds t) := by
  cases lineEnd with
  | lineFeed => exact ⟨unifyLineEnds t, by simp [LineEnd.text, unifyLineEnds], rfl⟩
  | both => exact ⟨unifyLineEnds t, by simp [LineEnd.text, unifyLineEnds], rfl⟩
  | carriageReturn =>
    -- a line feed that starts the next line would be taken along
    by_cases h : t.head? = some (.char '\n')
    · obtain ⟨t, rfl⟩ : ∃ rest, t = .char '\n' :: rest := ⟨t.tail, (List.eq_cons_of_mem_head? h)⟩
      refine ⟨unifyLineEnds t, rfl, ?_⟩
      rw [unifyLineEnds, bindings_cons_of_isBlank (by decide)]
      all_goals simp
    · refine ⟨unifyLineEnds t, ?_, rfl⟩
      show unifyLineEnds (.char '\r' :: t) = _
      rw [unifyLineEnds]
      rintro rest rfl
      exact h rfl

namespace Sheet

theorem text_nil (last : Line) : text ⟨[], last⟩ = last.text := rfl

theorem text_cons (l : Line × LineEnd) (lines : List (Line × LineEnd)) (last : Line) :
    text ⟨l :: lines, last⟩ = l.1.text ++ (l.2.text ++ text ⟨lines, last⟩) := by
  simp [text, List.append_assoc]

theorem entries_cons (l : Line × LineEnd) (lines : List (Line × LineEnd)) (last : Line) :
    entries ⟨l :: lines, last⟩ = l.1.assignment?.toList ++ entries ⟨lines, last⟩ := by
  unfold entries
  rw [List.map_cons, List.cons_append, List.filterMap_cons]
  cases l.1.assignment? <;> rfl

/-- **The bindings of a sheet's text are its entries.** By induction on the lines that have an end: each
is read up to it, and the end itself is white space before the next line. -/
theorem bindings_text (s : Sheet) :
    bindings (unifyLineEnds s.text) = s.entries.map Entry.binding := by
  obtain ⟨lines, last⟩ := s
  induction lines with
  | nil =>
    have hend : AtLineEnd [] := fun p hp => absurd hp (by simp)
    have hlast := last.bindings_text_append hend
    have hentries : entries ⟨[], last⟩ = last.assignment?.toList := by
      cases last <;> rfl
    rw [List.append_nil, bindings_nil, List.append_nil] at hlast
    rw [text_nil, unifyLineEnds_eq_self last.noReturn_text, hlast, hentries]
  | cons l lines ih =>
    obtain ⟨rest, hrest, hbindings⟩ := l.2.unifyLineEnds_text_append (text ⟨lines, last⟩)
    have hend : AtLineEnd (.char '\n' :: rest) := fun p hp => (Option.some.inj hp).symm
    rw [text_cons, unifyLineEnds_append l.1.noReturn_text, hrest,
      l.1.bindings_text_append hend, bindings_cons_of_isBlank (by decide), hbindings, ih,
      entries_cons, List.map_append]

end Sheet

end DotEnv

end ModelProvision
