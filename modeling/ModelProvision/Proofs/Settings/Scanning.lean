import Mathlib.Data.List.Basic
import ModelProvision.Proofs.Settings.Assignment

/-!
# How the pieces of an environment file are scanned

Each scanner takes exactly the piece that was written and leaves what follows it, whatever that is, as
long as it does not go on with the piece:

* white space before a binding makes no difference (`bindings_append_of_blanks`);
* a comment and a line that starts with `=` are passed over and bind nothing
  (`bindings_comment`, `bindings_malformed`);
* a name, `='`, a value without quotes and backslashes, and `'` bind the value to the name
  (**`bindings_assignment`**), if the line is finished after that.

What stands before a name is left to `skipExport`, and what finishes a line to `finishLine?`.
-/

namespace ModelProvision.DotEnv

open Blank

variable {t rest blanks remark key value tail after : Text} {p : CodePoint}

theorem isBlank_of_isInlineBlank (h : isInlineBlank p) : isBlank p := by
  unfold isInlineBlank at h
  rw [Bool.and_eq_true, Bool.and_eq_true] at h
  exact h.1.1

/-! ## Ends of lines -/

/-- Up to the first carriage return all line ends are unified already … -/
theorem unifyLineEnds_append (h : .char '\r' ∉ t) :
    unifyLineEnds (t ++ rest) = t ++ unifyLineEnds rest := by
  induction t with
  | nil => rfl
  | cons p t ih =>
    obtain ⟨hp, ht⟩ := not_or.mp (mt List.mem_cons.mpr h)
    rw [List.cons_append, unifyLineEnds, ih ht, List.cons_append]
    · exact fun _ hreturn => absurd hreturn.symm hp
    · exact fun hreturn => absurd hreturn.symm hp

/-- … and without one there is nothing to do. -/
theorem unifyLineEnds_eq_self (h : .char '\r' ∉ t) : unifyLineEnds t = t := by
  have happend : unifyLineEnds (t ++ []) = t ++ unifyLineEnds [] := unifyLineEnds_append h
  rwa [List.append_nil, unifyLineEnds, List.append_nil] at happend

/-- The text is at the end of a line, or at its own end. -/
def AtLineEnd (t : Text) : Prop := ∀ p ∈ t.head?, p = '\n'

theorem AtLineEnd.cases (h : AtLineEnd t) : t = [] ∨ ∃ rest, t = .char '\n' :: rest := by
  cases t with
  | nil => exact .inl rfl
  | cons p rest =>
    obtain rfl := h p rfl
    exact .inr ⟨rest, rfl⟩

theorem skipLine_append (h : .char '\n' ∉ t) : skipLine (t ++ rest) = skipLine rest := by
  unfold skipLine
  rw [List.dropWhile_append_of_pos]
  intro p hp
  have hne : p ≠ .char '\n' := fun heq => h (heq ▸ hp)
  simpa using hne

theorem skipInlineBlanks_append (h : ∀ p ∈ blanks, isInlineBlank p) :
    skipInlineBlanks (blanks ++ rest) = skipInlineBlanks rest :=
  List.dropWhile_append_of_pos h

theorem skipInlineBlanks_cons (h : ¬ isInlineBlank p) : skipInlineBlanks (p :: t) = p :: t :=
  List.dropWhile_cons_of_neg h

/-- Blanks at the end of a line make no difference … -/
theorem finishLine?_append (h : ∀ p ∈ blanks, isInlineBlank p) :
    finishLine? (blanks ++ rest) = finishLine? rest := by
  unfold finishLine?
  rw [skipInlineBlanks_append h]

/-- … the end finishes it … -/
theorem AtLineEnd.finishLine?_eq (h : AtLineEnd t) : finishLine? t = some (skipLine t) := by
  obtain rfl | ⟨rest, rfl⟩ := h.cases
  · rfl
  · rfl

/-- … and so does a remark. -/
theorem finishLine?_remark (h : .char '\n' ∉ remark) :
    finishLine? (.char '#' :: (remark ++ rest)) = some (skipLine rest) := by
  show some (skipLine (remark ++ rest)) = _
  rw [skipLine_append h]

/-! ## Names and values -/

/-- A name is scanned up to the sign after it. -/
theorem scanKey?_key (hne : key ≠ []) (hkey : ∀ p ∈ key, isKeyPoint p ∧ p ≠ '\'') :
    scanKey? (key ++ .char '=' :: rest) = some (some key, .char '=' :: rest) := by
  obtain ⟨p, key, rfl⟩ := List.exists_cons_of_ne_nil hne
  obtain ⟨hp, hquote⟩ := hkey p List.mem_cons_self
  have hpoints : ∀ q ∈ p :: key, isKeyPoint q := fun q hq => (hkey q hq).1
  -- a name begins neither a comment nor a quoted key
  have hhash : p ≠ '#' := by
    rintro rfl
    exact absurd hp (by decide)
  have htake : (p :: key ++ .char '=' :: rest).takeWhile isKeyPoint = p :: key := by
    rw [List.takeWhile_append_of_pos hpoints, List.takeWhile_cons_of_neg (by decide),
      List.append_nil]
  have hdrop : (p :: key ++ .char '=' :: rest).dropWhile isKeyPoint = .char '=' :: rest := by
    rw [List.dropWhile_append_of_pos hpoints, List.dropWhile_cons_of_neg (by decide)]
  rw [List.cons_append] at htake hdrop ⊢
  rw [scanKey?, if_neg hhash, if_neg hquote, if_pos hp, htake, hdrop]

/-- A value is cut at the first quote after it. By induction on the value, no code point of which is a
quote or hides one. -/
theorem cutAtOpenQuote?_append {quote : CodePoint} (hquote : quote ∉ value)
    (hbackslash : .char '\\' ∉ value) :
    cutAtOpenQuote? quote false (value ++ quote :: rest) = some (value, rest) := by
  induction value with
  | nil => simp [cutAtOpenQuote?]
  | cons p value ih =>
    obtain ⟨hp, hquote⟩ := not_or.mp (mt List.mem_cons.mpr hquote)
    obtain ⟨hp', hbackslash⟩ := not_or.mp (mt List.mem_cons.mpr hbackslash)
    have hescape : decide (p = .char '\\') = false := decide_eq_false (Ne.symm hp')
    rw [List.cons_append, cutAtOpenQuote?, if_neg (fun h => hp h.1.symm), hescape,
      ih hquote hbackslash, Option.map_some]

/-- Without a backslash there is nothing to unescape. -/
theorem unescape_eq_self {escape? : CodePoint → Option Char} (h : .char '\\' ∉ t) :
    unescape escape? t = t := by
  fun_induction unescape escape? t with
  | case1 => rfl
  | case2 => rfl
  | case3 => exact absurd List.mem_cons_self h
  | case4 => exact absurd List.mem_cons_self h
  | case5 p q rest hp ih => rw [ih fun hmem => h (List.mem_cons_of_mem p hmem)]

/-- A value between single quotes is scanned as it stands … -/
theorem scanValue?_quoted (hquote : .char '\'' ∉ value) (hbackslash : .char '\\' ∉ value) :
    scanValue? (.char '\'' :: (value ++ .char '\'' :: rest)) = some (value, rest) := by
  rw [scanValue?, cutAtQuote?, cutAtOpenQuote?_append hquote hbackslash]
  show some (unescape singleQuoteEscape? value, rest) = _
  rw [unescape_eq_self hbackslash]

/-- … with the sign before it. -/
theorem scanAssignment_quoted (hquote : .char '\'' ∉ value) (hbackslash : .char '\\' ∉ value) :
    scanAssignment (.char '=' :: .char '\'' :: (value ++ .char '\'' :: rest)) =
      .ok (some value, rest) := by
  have hequals : ¬ isInlineBlank (.char '=') := by decide
  have hopen : ¬ isInlineBlank (.char '\'') := by decide
  simp only [scanAssignment, skipInlineBlanks_cons hequals, skipInlineBlanks_cons hopen,
    scanValue?_quoted hquote hbackslash]

/-! ## What stands before a name -/

/-- The word is skipped with its blanks … -/
theorem skipExport_exported (hne : blanks ≠ []) (hblanks : ∀ p ∈ blanks, isInlineBlank p)
    (hrest : ∀ p ∈ rest.head?, ¬ isInlineBlank p) :
    skipExport (("export" : Text) ++ (blanks ++ rest)) = rest := by
  have hword : ("export" : Text).isPrefixOf? (("export" : Text) ++ (blanks ++ rest)) =
      some (blanks ++ rest) := List.isPrefixOf?_eq_some_iff_append_eq.mpr rfl
  obtain ⟨p, blanks, rfl⟩ := List.exists_cons_of_ne_nil hne
  obtain ⟨hp, hblanks⟩ := List.forall_mem_cons.mp hblanks
  rw [skipExport, hword, List.cons_append]
  show (if isInlineBlank p then skipInlineBlanks (blanks ++ rest) else _) = rest
  rw [if_pos hp, skipInlineBlanks_append hblanks]
  -- all blanks after the word are skipped, and then the name stands there
  cases rest with
  | nil => rfl
  | cons q rest => exact skipInlineBlanks_cons (hrest q rfl)

/-- … and a name that does not begin like it is left alone. -/
theorem skipExport_of_head (h : t.head? ≠ some (.char 'e')) : skipExport t = t := by
  have hword : ("export" : Text).isPrefixOf? t = none := by
    rw [Option.eq_none_iff_forall_ne_some]
    intro rest hrest
    rw [← List.isPrefixOf?_eq_some_iff_append_eq.mp hrest] at h
    exact h rfl
  rw [skipExport, hword]

/-! ## Bindings -/

theorem bindings_nil : bindings [] = [] := by
  unfold bindings
  rfl

/-- White space before a binding makes no difference … -/
theorem bindings_cons_of_isBlank (h : isBlank p) : bindings (p :: t) = bindings t := by
  have hscan : scanBinding (p :: t) = scanBinding t := by
    unfold scanBinding
    rw [List.dropWhile_cons_of_pos h]
  -- scanning drops white space first, so both texts go on from the same place
  cases t with
  | nil =>
    rw [bindings_of_scan (List.cons_ne_nil p []) hscan]
    rfl
  | cons q t =>
    rw [bindings_of_scan (List.cons_ne_nil p (q :: t)) hscan,
      bindings_of_scan (List.cons_ne_nil q t) rfl]

/-- … however much of it there is … -/
theorem bindings_append_of_blanks (h : ∀ p ∈ blanks, isInlineBlank p) :
    bindings (blanks ++ rest) = bindings rest := by
  induction blanks with
  | nil => rfl
  | cons p blanks ih =>
    obtain ⟨hp, hblanks⟩ := List.forall_mem_cons.mp h
    rw [List.cons_append, bindings_cons_of_isBlank (isBlank_of_isInlineBlank hp), ih hblanks]

/-- … and skipping to the end of the line that is at its end makes none either. -/
theorem AtLineEnd.bindings_skipLine (h : AtLineEnd t) : bindings (skipLine t) = bindings t := by
  obtain rfl | ⟨rest, rfl⟩ := h.cases
  · rfl
  · exact (bindings_cons_of_isBlank (by decide)).symm

/-- A comment binds nothing … -/
theorem bindings_comment (h : .char '\n' ∉ remark) :
    bindings (.char '#' :: (remark ++ rest)) = bindings (skipLine rest) := by
  have hscan : scanBinding (.char '#' :: (remark ++ rest)) = (none, skipLine rest) := by
    show (none, skipLine (remark ++ rest)) = _
    rw [skipLine_append h]
  exact bindings_of_scan (List.cons_ne_nil _ _) hscan

/-- … and neither does a line that starts with `=`: it is skipped as a whole. -/
theorem bindings_malformed (h : .char '\n' ∉ t) :
    bindings (.char '=' :: (t ++ rest)) = bindings (skipLine rest) := by
  have hscan : scanBinding (.char '=' :: (t ++ rest)) = (none, skipLine rest) := by
    show (none, skipLine (.char '=' :: t ++ rest)) = _
    rw [skipLine_append (by simpa using h)]
  exact bindings_of_scan (List.cons_ne_nil _ _) hscan

/-- **A name, `='`, a value and `'` bind the value to the name.** -/
theorem bindings_assignment (hhead : ∀ p ∈ t.head?, ¬ isBlank p)
    (hname : skipExport t = key ++ .char '=' :: .char '\'' :: (value ++ .char '\'' :: tail))
    (hne : key ≠ []) (hkey : ∀ p ∈ key, isKeyPoint p ∧ p ≠ '\'')
    (hquote : .char '\'' ∉ value) (hbackslash : .char '\\' ∉ value)
    (hfinish : finishLine? tail = some rest) :
    bindings t = ⟨key, some value⟩ :: bindings rest := by
  -- nothing is dropped in front of the name
  have hstart : t.dropWhile isBlank = t := by
    cases t with
    | nil => rfl
    | cons p t => exact List.dropWhile_cons_of_neg (hhead p rfl)
  have hscan : scanBinding t = (some ⟨key, some value⟩, rest) := by
    simp only [scanBinding, hstart, hname, scanKey?_key hne hkey,
      scanAssignment_quoted hquote hbackslash, hfinish, Option.map_some]
  have hnonempty : t ≠ [] := by
    rintro rfl
    exact absurd (congrArg Prod.fst hscan) (Option.some_ne_none _).symm
  exact bindings_of_scan hnonempty hscan

end ModelProvision.DotEnv
