import ModelProvision.Proofs.Credentials.Steps
import ModelProvision.Proofs.Json.Reading

/-!
# What is read from the credentials entry

Reading takes one lookup, and what it comes to depends on the text of one entry alone. That text is
read as the grammar says (`read_iff_document`), unless it goes beyond a limit of the reader.

Whatever else goes wrong is meant to be reported as a fault of the config map. A refusal for a limit is
not: where all nesting fits, an integer that is too long still comes out as a fault of its own, and
nothing else does (`read_reported_iff`).
-/

namespace ModelProvision.Credentials

open Json.Grammar

/-! ## One text -/

/-- What becomes of a text, by what the reader makes of it. -/
inductive Decoding (s : Settings) (text : Text) : Except Fault CredentialsDocument → Prop where
  | document {members : CredentialsDocument} (hread : Json.read text = .ok (.object members)) :
      Decoding s text (.ok members)
  | rejected {reason : Text} {cause : Option Cause}
      (hread : ∀ members, Json.read text ≠ .ok (.object members)) :
      Decoding s text (.error (faultAt s reason cause))
  | oversized {digits : Nat} (hread : Json.read text = .error (.oversizedInteger digits)) :
      Decoding s text (.error (.oversizedInteger digits))
  | tooDeep {compound : Json.Compound} (hread : Json.read text = .error (.tooDeep compound)) :
      Decoding s text (.error (.nestedTooDeep compound))

/-- A text is decoded by what the reader makes of it. -/
theorem decoding (s : Settings) (text : Text) : Decoding s text (decode s text) := by
  rw [decode]
  split
  · next hread => exact .rejected fun members h => by simp [hread] at h
  · next hread => exact .oversized hread
  · next hread => exact .tooDeep hread
  · next hread => exact .document hread
  · next v hobject hread =>
    refine .rejected fun members h => ?_
    rw [hread, Except.ok.injEq] at h
    exact hobject members h

/-- A document comes out where an object was read … -/
theorem decode_eq_ok_iff {s : Settings} {text : Text} {members : CredentialsDocument} :
    decode s text = .ok members ↔ Json.read text = .ok (.object members) := by
  constructor
  · intro h
    have hdecoding := decoding s text
    rw [h] at hdecoding
    cases hdecoding with
    | document hread => exact hread
  · intro hread
    rw [decode, hread]

/-- … and a fault of its own where an integer is too long. -/
theorem decode_eq_oversized {s : Settings} {text : Text} (hintegers : ¬ IntegersFit text)
    (hnesting : NestingFits text) : ∃ digits, decode s text = .error (.oversizedInteger digits) := by
  obtain ⟨digits, hread⟩ := (Json.read_oversized_iff hnesting).mpr hintegers
  rw [decode, hread]
  exact ⟨digits, rfl⟩

/-- Within the limits a text is a document or a fault of the config map. -/
theorem decode_of_fits {s : Settings} {text : Text} (hintegers : IntegersFit text)
    (hnesting : NestingFits text) :
    (∃ members, Document text (.object members) ∧ decode s text = .ok members) ∨
      (∀ members, ¬ Document text (.object members)) ∧
        ∃ reason cause, decode s text = .error (faultAt s reason cause) := by
  -- no limit is hit, so the two refusals for one do not occur
  have hfits : ¬ HitsLimit (Json.read text) := fun h =>
    Json.hitsLimit_read_iff.mp h ⟨hintegers, hnesting⟩
  have hdecoding := decoding s text
  generalize decode s text = result at hdecoding
  cases hdecoding with
  | document hread => exact .inl ⟨_, Json.document_of_read hread, rfl⟩
  | rejected hread =>
    refine .inr ⟨fun members h => ?_, _, _, rfl⟩
    exact hread members ((Json.read_eq_ok_iff hintegers hnesting).mpr h)
  | @oversized digits hread => exact absurd ⟨.oversizedInteger digits, trivial, hread⟩ hfits
  | @tooDeep compound hread => exact absurd ⟨.tooDeep compound, trivial, hread⟩ hfits

/-! ## What reading returns -/

/-- The configured config map is found, and its credentials entry is read as an object with these
members. -/
def Supplies (cluster : Cluster) (s : Settings) (members : CredentialsDocument) : Prop :=
  ∃ text, Holds cluster s text ∧ Json.read text = .ok (.object members)

/-- A document is returned where the cluster supplies it. -/
theorem read_eq_ok_iff_supplies {cluster : Cluster} {s : Settings} {members : CredentialsDocument} :
    (read cluster s).result = .ok members ↔ Supplies cluster s members := by
  constructor
  · intro h
    obtain ⟨m, hfound, hdocument⟩ := found_of_ok h
    rw [ofConfigMap] at hdocument
    -- the config map has the entry, or nothing is read
    split at hdocument
    · exact absurd hdocument (by simp)
    · next text hentry => exact ⟨text, ⟨m, hfound, hentry⟩, decode_eq_ok_iff.mp hdocument⟩
  · rintro ⟨text, hholds, hread⟩
    rw [read_of_holds hholds]
    exact decode_eq_ok_iff.mpr hread

/-- No key of a document stands twice. -/
theorem Supplies.nodup_keys {cluster : Cluster} {s : Settings} {members : CredentialsDocument}
    (h : Supplies cluster s members) : (members.map Prod.fst).Nodup := by
  obtain ⟨text, -, hread⟩ := h
  exact (Json.document_of_read hread).nodup_keys

/-- **The credentials entry is read as the grammar says.** Within the limits of the reader a document
is returned exactly when the text is a document whose root is an object that denotes it, and any
other text is a fault of the config map. -/
theorem read_iff_document {cluster : Cluster} {s : Settings} {text : Text}
    (hholds : Holds cluster s text) (hintegers : IntegersFit text) (hnesting : NestingFits text) :
    (∀ members, (read cluster s).result = .ok members ↔ Document text (.object members)) ∧
      ((∀ members, ¬ Document text (.object members)) →
        ∃ reason cause, (read cluster s).result = .error (faultAt s reason cause)) := by
  rw [read_of_holds hholds]
  refine ⟨fun members => ?_, fun hnone => ?_⟩
  · rw [decode_eq_ok_iff, Json.read_eq_ok_iff hintegers hnesting]
  · rcases decode_of_fits (s := s) hintegers hnesting with ⟨members, hdocument, -⟩ | ⟨-, hfault⟩
    · exact absurd hdocument (hnone members)
    · exact hfault

/-- A rendering with blanks, an escape and a key that stands twice. -/
def Sample.rendering : Text :=
  " \x7b \"s3\" : [\"\"],\n\"gcs\":\x7b\x7d, \"s3\" : \x7b\"key\":\"id\\n\"\x7d\x7d\t"

theorem Sample.read_rendering : Json.read Sample.rendering =
    .ok (.object [("s3", .object [("key", .string "id\n")]), ("gcs", .object [])]) := by
  cbv

/-- A cluster with one config map, where the settings say by default. -/
def Sample.clusterOf (text : Text) : Cluster :=
  .holding [⟨Reserved.controllerNamespace, Reserved.configMapName,
    some [(Reserved.credentialsEntry, text)]⟩]

theorem Sample.holds_clusterOf (text : Text) :
    Holds (Sample.clusterOf text) (.defaults .injector) text :=
  ⟨_, rfl, rfl⟩

theorem Sample.supplies_rendering : Supplies (Sample.clusterOf Sample.rendering) (.defaults .injector)
    [("s3", .object [("key", .string "id\n")]), ("gcs", .object [])] :=
  ⟨_, Sample.holds_clusterOf _, Sample.read_rendering⟩

/-- Characters that are neither quotes nor backslashes nor control characters name themselves. -/
theorem name_of_plain (name : Text)
    (h : ∀ p ∈ name, p ≠ .char '"' ∧ p ≠ .char '\\' ∧ 0x20 ≤ p.toNat) (rest : Text) :
    Name (.char '"' :: (name ++ .char '"' :: rest)) name rest := by
  refine ⟨_, rest, .refl _, ?_, .refl rest⟩
  induction name with
  | nil => exact .close
  | cons p name ih =>
    obtain ⟨hquote, hbackslash, hcontrol⟩ := h p List.mem_cons_self
    exact .plain hquote hbackslash hcontrol (ih fun q hq => h q (List.mem_cons_of_mem p hq))

/-- A rendering whose one value is a character that two escapes spell together. -/
def Sample.escaped : Text := "\x7b\"k\":\"\\ud83d\\uDE00\"\x7d"

/-- The two escapes are halves of one character. -/
theorem Sample.document_escaped : Document Sample.escaped (.object [("k", .string "😀")]) := by
  have hhigh : ∀ t : Text, CodeUnit (.ofString "d83d" ++ t) 0xd83d t := fun t =>
    .mk (i := 13) (j := 8) (k := 3) (l := 13) (.inl rfl) (.inl rfl) (.inl rfl) (.inl rfl)
  have hlow : ∀ t : Text, CodeUnit (.ofString "DE00" ++ t) 0xde00 t := fun t =>
    .mk (i := 13) (j := 14) (k := 0) (l := 0) (.inr rfl) (.inr rfl) (.inr rfl) (.inr rfl)
  have hcontent : Content "\\ud83d\\uDE00\"\x7d" "😀" "\x7d" :=
    .pair (hhigh _) (hlow _) ⟨by decide, by decide, by decide⟩ .close
  have hvalue := Spells.element (.refl _) (.string hcontent) (.refl _)
  have hname := name_of_plain "k" (by decide)
  exact .element (.refl _)
    (.object (.lastMember (hname _) hvalue) (Keyed.collapses_ofPairs _)) (.refl _)

/-- A rendering with an integer, a number with a point and an exponent, and a name. -/
def Sample.numbers : Text := "\x7b\"ttl\":-15,\"share\":2.5e-1,\"proxy\":null\x7d"

/-- The numbers denote an integer and a double that is a quarter. -/
theorem Sample.document_numbers : Document Sample.numbers
    (.object [("ttl", .int (-15)), ("share", .float 0.25), ("proxy", .null)]) := by
  have hdigits : ∀ ds : Text, ds ≠ [] → (∀ p ∈ ds, Json.isDigit p) → ∀ rest,
      Digits (ds ++ rest) ds rest :=
    fun ds hne hds rest => ⟨rfl, hne, fun p hp => isDigit_iff.mp (hds p hp)⟩
  -- a minus, and one digit after the other with its power of ten
  have hinteger : ∀ rest, Spells (.ofString "-15" ++ rest) (.value (.int (-15))) rest := by
    intro rest
    have hnumber : Number (.ofString "-15" ++ rest) ⟨true, "15", [], none⟩ rest :=
      .mk .present (.digits (by decide) (hdigits "15" (by decide) (by decide) rest)) .absent .absent
    have hamount : Amounts "15" 15 := .digit (d := 1) (n := 5) rfl (.digit (d := 5) rfl .none)
    exact .number hnumber (.integer hamount)
  have hquarter : ∀ rest, Spells (.ofString "2.5e-1" ++ rest) (.value (.float 0.25)) rest := by
    intro rest
    have hnumber : Number (.ofString "2.5e-1" ++ rest) ⟨false, "2", "5", some (true, "1")⟩ rest :=
      .mk .absent (.digits (by decide) (hdigits "2" (by decide) (by decide) _))
        (.present (hdigits "5" (by decide) (by decide) _))
        (.present (.inl rfl) .minus (hdigits "1" (by decide) (by decide) rest))
    have hdigit : ∀ {p d}, Digit p d → Amounts [p] d := fun {p d} hp => by
      have hamount := Amounts.digit hp .none
      rwa [List.length_nil, Nat.pow_zero, Nat.mul_one, Nat.add_zero] at hamount
    -- a quarter is a double, so nothing is nearer to it
    have hvalue : ((2 : ℚ) + 5 / 10 ^ 1) * 10 ^ (-1 : Int) = (2 ^ 52 : Nat) * 2 ^ (-54 : Int) := by
      norm_num
    have hlies : Lies 0.25 false ((2 + 5 / 10 ^ 1) * 10 ^ (-1 : Int)) := by
      rw [hvalue]
      exact .finite (by decide +kernel)
    exact .number hnumber (.double (.inl (by decide)) (hdigit (p := .char '2') (d := 2) rfl)
      (hdigit (p := .char '5') (d := 5) rfl) (.minus (hdigit (p := .char '1') (d := 1) rfl))
      hlies.nearest)
  have hnull : ∀ rest, Spells (.ofString "null" ++ rest) (.value .null) rest := fun _ =>
    .literal .null
  have hbare : ∀ {t rest v}, Spells t (.value v) rest → Spells t (.element v) rest := fun h =>
    .element (.refl _) h (.refl _)
  have hpairs : Spells "\"ttl\":-15,\"share\":2.5e-1,\"proxy\":null\x7d"
      (.members [("ttl", .int (-15)), ("share", .float 0.25), ("proxy", .null)]) "\x7d" :=
    .members (name_of_plain "ttl" (by decide) _) (hbare (hinteger _))
      (.members (name_of_plain "share" (by decide) _) (hbare (hquarter _))
        (.lastMember (name_of_plain "proxy" (by decide) _) (hbare (hnull _))))
  exact hbare (.object hpairs (Keyed.collapses_ofPairs _))

/-- Three texts that are read as the grammar says. -/
theorem read_iff_document_renderings :
    Document Sample.rendering
        (.object [("s3", .object [("key", .string "id\n")]), ("gcs", .object [])]) ∧
      (read (Sample.clusterOf Sample.escaped) (.defaults .injector)).result =
        .ok [("k", .string "😀")] ∧
      (read (Sample.clusterOf Sample.numbers) (.defaults .injector)).result =
        .ok [("ttl", .int (-15)), ("share", .float 0.25), ("proxy", .null)] := by
  have hfits : ∀ text ∈ [Sample.rendering, Sample.escaped, Sample.numbers],
      IntegersFit text ∧ NestingFits text := by
    have hshort : ∀ text ∈ [Sample.rendering, Sample.escaped, Sample.numbers],
        text.length ≤ 4300 ∧ openings text ≤ Json.maxDepth := by decide
    exact fun text h => (hshort text h).imp integersFit_of_length_le nestingFits_of_openings_le
  obtain ⟨hintegers, hnesting⟩ := hfits Sample.rendering (by simp)
  obtain ⟨hintegers', hnesting'⟩ := hfits Sample.escaped (by simp)
  obtain ⟨hintegers'', hnesting''⟩ := hfits Sample.numbers (by simp)
  refine ⟨?_, ?_, ?_⟩
  · exact ((read_iff_document (Sample.holds_clusterOf _) hintegers hnesting).1 _).mp
      (read_eq_ok_iff_supplies.mpr Sample.supplies_rendering)
  · exact ((read_iff_document (Sample.holds_clusterOf _) hintegers' hnesting').1 _).mpr
      Sample.document_escaped
  · exact ((read_iff_document (Sample.holds_clusterOf _) hintegers'' hnesting'').1 _).mpr
      Sample.document_numbers

/-! ## What is reported -/

/-- A document, or a fault that names the configured config map. -/
def Reported (s : Settings) (result : Except Fault CredentialsDocument) : Prop :=
  (∃ document, result = .ok document) ∨
    ∃ reason cause, result = .error
      (.credentialConfiguration (s.value .configMapName) (s.value .controllerNamespace) reason cause)

/-- Where everything fits, reading returns a document or reports the config map … -/
theorem reported_of_fits {cluster : Cluster} {s : Settings}
    (hanswers : ∀ fault, cluster ≠ .failing fault)
    (hfits : ∀ text, Holds cluster s text → IntegersFit text ∧ NestingFits text) :
    Reported s (read cluster s).result := by
  -- by the answer of the cluster, and then by the entry of the map
  cases hlookup : configMap cluster s with
  | error failure =>
    cases failure with
    | refused status reason =>
      obtain ⟨text, hresult⟩ := (read_of_refused hlookup).1
      exact .inr ⟨text, _, hresult⟩
    | failed fault => exact absurd (eq_failing_of_failed hlookup) (hanswers fault)
  | ok m =>
    cases hentry : m.entry? Reserved.credentialsEntry with
    | none =>
      rw [(read_of_found hlookup).1, ofConfigMap, hentry]
      exact .inr ⟨_, _, rfl⟩
    | some text =>
      obtain ⟨hintegers, hnesting⟩ := hfits text ⟨m, hlookup, hentry⟩
      rw [read_of_holds ⟨m, hlookup, hentry⟩]
      rcases decode_of_fits (s := s) hintegers hnesting with ⟨members, -, hok⟩ | ⟨-, reason, cause, hfault⟩
      · exact .inl ⟨members, hok⟩
      · exact .inr ⟨reason, cause, hfault⟩

/-- … and an integer that is too long is a fault of its own … -/
theorem read_eq_oversized {cluster : Cluster} {s : Settings} {text : Text}
    (hholds : Holds cluster s text) (hintegers : ¬ IntegersFit text) (hnesting : NestingFits text) :
    ∃ digits, (read cluster s).result = .error (.oversizedInteger digits) := by
  rw [read_of_holds hholds]
  exact decode_eq_oversized hintegers hnesting

/-- … that does not name the config map. -/
theorem not_reported_oversized {s : Settings} {digits : Nat} :
    ¬ Reported s (.error (.oversizedInteger digits)) := by
  rintro (⟨members, h⟩ | ⟨reason, cause, h⟩)
  · simp at h
  · simp at h

/-- **Reading returns a document or reports the config map, exactly where all integers fit.** Where
one does not, its own fault escapes. -/
theorem read_reported_iff {cluster : Cluster} {s : Settings}
    (hanswers : ∀ fault, cluster ≠ .failing fault)
    (hnesting : ∀ text, Holds cluster s text → NestingFits text) :
    (Reported s (read cluster s).result ↔ ∀ text, Holds cluster s text → IntegersFit text) ∧
      (¬ Reported s (read cluster s).result →
        ∃ digits, (read cluster s).result = .error (.oversizedInteger digits)) := by
  -- a cluster holds one text at most, so one integer that is too long decides
  by_cases hintegers : ∀ text, Holds cluster s text → IntegersFit text
  · have hreported : Reported s (read cluster s).result :=
      reported_of_fits hanswers fun text h => ⟨hintegers text h, hnesting text h⟩
    exact ⟨iff_of_true hreported hintegers, fun h => absurd hreported h⟩
  · obtain ⟨text, htext⟩ := not_forall.mp hintegers
    obtain ⟨hholds, hoversized⟩ := Classical.not_imp.mp htext
    obtain ⟨digits, hresult⟩ := read_eq_oversized hholds hoversized (hnesting text hholds)
    rw [hresult]
    exact ⟨iff_of_false not_reported_oversized hintegers, fun _ => ⟨digits, rfl⟩⟩

theorem Sample.eq_of_holds {text text' : Text}
    (h : Holds (Sample.clusterOf text) (.defaults .injector) text') : text' = text := by
  obtain ⟨m, hfound, hentry⟩ := h
  obtain ⟨m', hfound', hentry'⟩ := Sample.holds_clusterOf text
  rw [hfound, Except.ok.injEq] at hfound'
  rw [← hfound', hentry, Option.some.injEq] at hentry'
  exact hentry'

theorem Sample.clusterOf_ne_failing (text : Text) (fault : Fault) :
    Sample.clusterOf text ≠ .failing fault := by
  simp [Sample.clusterOf]

theorem read_reported_iff_rendering :
    Reported (.defaults .injector)
      (read (Sample.clusterOf Sample.rendering) (.defaults .injector)).result := by
  have hanswers := Sample.clusterOf_ne_failing Sample.rendering
  have hnesting : ∀ text, Holds (Sample.clusterOf Sample.rendering) (.defaults .injector) text →
      NestingFits text :=
    fun text h => Sample.eq_of_holds h ▸ nestingFits_of_openings_le (by decide)
  have hintegers : ∀ text, Holds (Sample.clusterOf Sample.rendering) (.defaults .injector) text →
      IntegersFit text :=
    fun text h => Sample.eq_of_holds h ▸ integersFit_of_length_le (by decide)
  exact (read_reported_iff hanswers hnesting).1.mpr hintegers

/-- An object with one member, an integer of so many digits. -/
def Sample.integerOf (count : Nat) : Text :=
  .char '{' :: .char '"' :: .char 'n' :: .char '"' :: .char ':' ::
    (List.replicate count (.char '1') ++ [.char '}'])

/-- One object nests one level deep … -/
theorem Sample.nestingFits_integerOf (count : Nat) : NestingFits (Sample.integerOf count) := by
  refine nestingFits_of_openings_le ?_
  have hopenings : openings (Sample.integerOf count) = 1 := by
    simp [openings, Sample.integerOf, opening, List.countP_append, List.countP_replicate]
  rw [hopenings]
  decide

/-- … but its integer may be too long. -/
theorem Sample.not_integersFit_integerOf {count : Nat} (h : 4300 < count) :
    ¬ IntegersFit (Sample.integerOf count) := by
  let digits : Text := List.replicate count (.char '1')
  have hname := name_of_plain "n" (by decide)
  have hstops : Stops [.char '}'] := (ends_cons (by simp) []).stops
  have hdigits : Digits (digits ++ [.char '}']) digits [.char '}'] := by
    refine ⟨rfl, List.ne_nil_of_length_pos ?_, fun p hp => ?_⟩
    · rw [List.length_replicate]
      omega
    · rw [List.eq_of_mem_replicate hp]
      exact ⟨1, rfl⟩
  have hwhole : Whole (digits ++ [.char '}']) digits [.char '}'] := by
    obtain ⟨fewer, rfl⟩ : ∃ fewer, count = fewer + 1 := ⟨count - 1, by omega⟩
    exact .digits (by decide) hdigits
  have hinteger : IntegerAt (digits ++ [.char '}']) count :=
    ⟨false, _, digits, _, .absent, hwhole, hstops, List.length_replicate⟩
  -- the integer is the value of the first member
  have hmeets : Meets (Sample.integerOf count) 1 (digits ++ [.char '}']) :=
    ⟨_, .refl _, .object (.first (hname _) (.refl _)) .here⟩
  intro hfits
  have := hfits _ _ _ hmeets hinteger
  omega

/-- An integer of 4301 digits is a fault that does not name the config map. -/
theorem read_reports_no_oversized_integer :
    (∀ fault, Sample.clusterOf (Sample.integerOf 4301) ≠ .failing fault) ∧
      (∀ text, Holds (Sample.clusterOf (Sample.integerOf 4301)) (.defaults .injector) text →
        NestingFits text) ∧
      ¬ Reported (.defaults .injector)
        (read (Sample.clusterOf (Sample.integerOf 4301)) (.defaults .injector)).result := by
  refine ⟨Sample.clusterOf_ne_failing _, fun text h => ?_, ?_⟩
  · exact Sample.eq_of_holds h ▸ Sample.nestingFits_integerOf 4301
  · obtain ⟨digits, hresult⟩ := read_eq_oversized (Sample.holds_clusterOf (Sample.integerOf 4301))
      (Sample.not_integersFit_integerOf (by decide)) (Sample.nestingFits_integerOf 4301)
    rw [hresult]
    exact not_reported_oversized

end ModelProvision.Credentials
