import ModelProvision.Proofs.Credentials.Document
import ModelProvision.Proofs.Text

/-!
# What log entries give away

Loading says at most one thing, and two runs that differ only in what must stay secret say the same.
Where a document was read, that is all but the set of its top-level keys: the keys are sorted before
they are said, so neither their order nor a repetition shows (`backends_congr`). Where the lookup was
refused, it is all but the status.
-/

namespace ModelProvision.Credentials

section Entries

variable {α : Type} {cluster : Cluster} {s : Settings} (factory : Factory α)

/-- Where a document is supplied one entry is said, about the backends … -/
theorem entries_of_supplies {members : CredentialsDocument} (h : Supplies cluster s members) :
    (load cluster factory s).entries = [loadedEntry s members] :=
  (load_of_document factory (read_eq_ok_iff_supplies.mpr h)).2.2

/-- … where the map holds none nothing is said … -/
theorem entries_of_found {m : ConfigMap} (hfound : configMap cluster s = .ok m)
    (hnone : ∀ members, ¬ Supplies cluster s members) : (load cluster factory s).entries = [] := by
  cases hresult : (read cluster s).result with
  | error fault => exact (load_of_error factory hresult).2.2.trans (read_of_found hfound).2
  | ok members => exact absurd (read_eq_ok_iff_supplies.mp hresult) (hnone members)

/-- … and where the lookup is refused one entry, about the status. -/
theorem entries_of_refused {status reason : Json}
    (hrefused : configMap cluster s = .error (.refused status reason)) :
    (load cluster factory s).entries = [refusedEntry s status] := by
  obtain ⟨⟨text, hresult⟩, hsaid⟩ := read_of_refused hrefused
  exact (load_of_error factory hresult).2.2.trans hsaid

end Entries

/-- The backends are the keys, in an order that does not depend on the document's. -/
theorem backends_congr {members members' : CredentialsDocument}
    (h : (members.map Prod.fst).Nodup) (h' : (members'.map Prod.fst).Nodup)
    (hkeys : ∀ key, key ∈ members.map Prod.fst ↔ key ∈ members'.map Prod.fst) :
    backends members = backends members' :=
  Text.mergeSort_congr h h' hkeys

/-- **Log records give away nothing of a credentials document but its top-level keys.** Where the map
is found without a document nothing is said, and where the lookup is refused, nothing beyond the
status. -/
theorem load_says_keys_only {α β : Type} (s : Settings) (log : Logging) (cluster cluster' : Cluster)
    (factory : Factory α) (factory' : Factory β) :
    (∀ members members', Supplies cluster s members → Supplies cluster' s members' →
      (∀ key, key ∈ members.map Prod.fst ↔ key ∈ members'.map Prod.fst) →
      log.sayAll (load cluster factory s).entries =
        log.sayAll (load cluster' factory' s).entries) ∧
    (∀ m, configMap cluster s = .ok m → (∀ members, ¬ Supplies cluster s members) →
      log.sayAll (load cluster factory s).entries = log) ∧
    (∀ status reason reason', configMap cluster s = .error (.refused status reason) →
      configMap cluster' s = .error (.refused status reason') →
      log.sayAll (load cluster factory s).entries =
        log.sayAll (load cluster' factory' s).entries) := by
  refine ⟨fun members members' h h' hkeys => ?_, fun m hfound hnone => ?_,
    fun status reason reason' hrefused hrefused' => ?_⟩
  -- the one entry that is said mentions the document by its backends alone
  · rw [entries_of_supplies factory h, entries_of_supplies factory' h', loadedEntry, loadedEntry,
      backends_congr h.nodup_keys h'.nodup_keys hkeys]
  · rw [entries_of_found factory hfound hnone]
    rfl
  · rw [entries_of_refused factory hrefused, entries_of_refused factory' hrefused']

/-- The keys of `Sample.rendering` the other way round, with other values. -/
def Sample.reordered : Text := "\x7b\"gcs\":\"key\",\"s3\":[]\x7d"

/-- Logging that records everything. -/
def Sample.recording : Logging where
  threshold := Level.debug.rank
  setup := some (.json, .ofSettings (.defaults .injector) Logging.defaultService)

def Sample.granting : Factory Unit := fun _ _ => .ok ()

def Sample.denying : Factory Bool := fun _ _ => .error (.credentialInjection [])

theorem Sample.supplies_reordered : Supplies (Sample.clusterOf Sample.reordered)
    (.defaults .injector) [("gcs", .string "key"), ("s3", .array [])] :=
  ⟨_, Sample.holds_clusterOf _, by cbv⟩

theorem Sample.not_supplies_array (members : CredentialsDocument) :
    ¬ Supplies (Sample.clusterOf "[]") (.defaults .injector) members := by
  rintro ⟨text, hholds, hread⟩
  have harray : Json.read "[]" = .ok (.array []) := by cbv
  rw [Sample.eq_of_holds hholds, harray] at hread
  simp at hread

/-- Documents with the same keys, a map without one, and two refusals of one status. -/
theorem load_says_keys_only_samples :
    Sample.recording.sayAll
        (load (Sample.clusterOf Sample.rendering) Sample.granting (.defaults .injector)).entries =
      Sample.recording.sayAll
        (load (Sample.clusterOf Sample.reordered) Sample.denying (.defaults .injector)).entries ∧
    Sample.recording.sayAll
        (load (Sample.clusterOf "[]") Sample.granting (.defaults .injector)).entries =
      Sample.recording ∧
    Sample.recording.sayAll (load (.holding []) Sample.granting (.defaults .injector)).entries =
      Sample.recording.sayAll
        (load (.refusing (.int 404) "Gone") Sample.denying (.defaults .injector)).entries := by
  have hkeys : ∀ key : Text, key ∈ (["s3", "gcs"] : List Text) ↔ key ∈ (["gcs", "s3"] : List Text) := by
    intro key
    simp [or_comm]
  obtain ⟨m, hfound, -⟩ := Sample.holds_clusterOf "[]"
  refine ⟨?_, ?_, ?_⟩
  · exact (load_says_keys_only _ _ _ _ Sample.granting Sample.denying).1 _ _
      Sample.supplies_rendering Sample.supplies_reordered hkeys
  · exact (load_says_keys_only _ _ _ (.holding []) Sample.granting Sample.denying).2.1 m hfound
      Sample.not_supplies_array
  · exact (load_says_keys_only _ _ _ _ Sample.granting Sample.denying).2.2 _ _ _ rfl rfl

end ModelProvision.Credentials
