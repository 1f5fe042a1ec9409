import ManagedAgents.AgentRequests

/-!
# Entries of a roster

A normalised entry stands for the agent itself or is pinned to a version that
has no roster, and no two entries stand for the same agent.  Resolving a roster
turns the entry for the agent itself into one that names the new version.
-/

namespace ManagedAgents

open Fallible

/-- No roster, or one whose entries are objects that meet the condition. -/
def RosterOf (condition : List Dict → Prop) (multiagent : Json) : Prop :=
  multiagent = .null ∨ ∃ (fields : Dict) (entries : List Dict),
    multiagent = .dict fields ∧
      Dict.get fields "agents" = .list (entries.map .dict) ∧ condition entries

theorem RosterOf.imp
    {condition other : List Dict → Prop} {multiagent : Json}
    (hroster : RosterOf condition multiagent)
    (hother : ∀ entries, condition entries → other entries) :
    RosterOf other multiagent := by
  obtain hnull | ⟨fields, entries, hfields, hentries, hcondition⟩ := hroster
  · exact Or.inl hnull
  · exact Or.inr ⟨fields, entries, hfields, hentries, hother entries hcondition⟩

def isSelfEntry (entry : Dict) : Bool := Dict.get entry "type" = .str "self"

/-- The agent which an entry stands for. -/
def entryKey (own : String) (entry : Dict) : String :=
  if isSelfEntry entry then own
  else
    match Dict.get entry "id" with
    | .str agentId => agentId
    | _ => ""

/-- The entry names a version without a roster that a query has seen. -/
def PinnedEntry (view : AgentView) (entry : Dict) : Prop :=
  ∃ query, ∃ version ∈ (view query).versions,
    Dict.get entry "type" = .str "agent" ∧ Dict.get entry "id" = .str version.agentId ∧
      Dict.get entry "version" = .int version.version ∧ version.multiagent = .null

/-- What the normalisation of a roster leaves. -/
structure NormalEntries (view : AgentView) (own : String) (entries : List Dict) :
    Prop where
  pinned : ∀ entry ∈ entries, isSelfEntry entry = true ∨ PinnedEntry view entry
  distinct : (entries.map (entryKey own)).Nodup

theorem PinnedEntry.not_self
    {view : AgentView} {entry : Dict} (hpinned : PinnedEntry view entry) :
    isSelfEntry entry = false := by
  obtain ⟨query, version, -, htype, -⟩ := hpinned
  simp [isSelfEntry, htype]

/-! ## Normalising -/

theorem pinRosterEntry_eq_ok
    {py : Python} {workspaceId : String} {self : Option Agent} {view : AgentView}
    {query : ℕ} {seen : List String} {entry pinned : Dict} {agentId : String}
    (hpin : pinRosterEntry py workspaceId self view query seen entry =
      .ok (agentId, pinned)) :
    PinnedEntry view pinned ∧ (∀ own, entryKey own pinned = agentId) ∧
      agentId ∉ seen := by
  unfold pinRosterEntry at hpin
  obtain ⟨found, -, hpin⟩ := bind_eq_ok.mp hpin
  split at hpin
  next => cases hpin
  next referenced hreferenced =>
    simp only [bind_eq_ok, raiseIf_eq_ok] at hpin
    obtain ⟨-, -, number, -, -, -, hpin⟩ := hpin
    split at hpin
    next => cases hpin
    next version hversion =>
      simp only [bind_eq_ok, raiseIf_eq_ok, pure_eq_ok, Prod.mk.injEq, ne_eq,
        not_not] at hpin
      obtain ⟨-, hplain, -, hfresh, rfl, rfl⟩ := hpin
      have hrow := List.find?_some hversion
      simp only [decide_eq_true_eq] at hrow
      obtain ⟨rfl, rfl, -⟩ := hrow
      refine ⟨⟨query + 1, version, List.mem_of_find?_eq_some hversion, ?_, ?_, ?_,
        hplain⟩, ?_, hfresh⟩
      · simp [Dict.get_set_other]
      · simp [Dict.get_set_other]
      · simp
      · intro own
        simp [entryKey, isSelfEntry, Dict.get_set_other]

theorem NormalEntries.cons
    {view : AgentView} {own : String} {entry : Dict} {entries : List Dict}
    {seen : List String} (hnormal : NormalEntries view own entries)
    (hseen : ∀ other ∈ entries, entryKey own other ∉ entryKey own entry :: seen)
    (hentry : isSelfEntry entry = true ∨ PinnedEntry view entry)
    (hfresh : entryKey own entry ∉ seen) :
    NormalEntries view own (entry :: entries) ∧
      ∀ other ∈ entry :: entries, entryKey own other ∉ seen := by
  refine ⟨⟨?_, ?_⟩, ?_⟩
  · exact List.forall_mem_cons.mpr ⟨hentry, hnormal.pinned⟩
  · rw [List.map_cons, List.nodup_cons]
    refine ⟨?_, hnormal.distinct⟩
    intro hmem
    obtain ⟨other, hother, hsame⟩ := List.mem_map.mp hmem
    exact hseen other hother (List.mem_cons.mpr (Or.inl hsame))
  · refine List.forall_mem_cons.mpr ⟨hfresh, ?_⟩
    exact fun other hother hmem => hseen other hother (List.mem_cons_of_mem _ hmem)

theorem rosterEntries_eq_ok
    {py : Python} {workspaceId : String} {self : Option Agent} {view : AgentView}
    {query : ℕ} {seen : List String} {sawSelf : Bool} {items out : List Json}
    (hentries : rosterEntries py workspaceId self view query seen sawSelf items =
      .ok out) :
    ∃ entries : List Dict, out = entries.map .dict ∧
      NormalEntries view (selfKey self) entries ∧
      ∀ entry ∈ entries, entryKey (selfKey self) entry ∉ seen := by
  induction items generalizing query seen sawSelf out with
  | nil =>
      cases hentries
      exact ⟨[], rfl, ⟨by simp, List.nodup_nil⟩, by simp⟩
  | cons item rest ih =>
      simp only [rosterEntries, bind_eq_ok] at hentries
      obtain ⟨fields, -, hentries⟩ := hentries
      split at hentries
      next hself =>
        simp only [bind_eq_ok, raiseIf_eq_ok, pure_eq_ok] at hentries
        obtain ⟨-, -, -, hfresh, tail, htail, rfl⟩ := hentries
        obtain ⟨entries, rfl, hnormal, hseen⟩ := ih htail
        have hentry : isSelfEntry fields = true := by simp [isSelfEntry, hself]
        have hkey : entryKey (selfKey self) fields = selfKey self := by
          simp [entryKey, hentry]
        rw [← hkey] at hfresh
        refine ⟨fields :: entries, rfl,
          hnormal.cons ?_ (Or.inl hentry) hfresh⟩
        rw [hkey]
        exact hseen
      next =>
        simp only [bind_eq_ok, raiseIf_eq_ok, pure_eq_ok] at hentries
        obtain ⟨-, -, ⟨agentId, pinned⟩, hpin, tail, htail, rfl⟩ := hentries
        obtain ⟨hpinned, hkey, hfresh⟩ := pinRosterEntry_eq_ok hpin
        obtain ⟨entries, rfl, hnormal, hseen⟩ := ih htail
        rw [← hkey (selfKey self)] at hfresh
        refine ⟨pinned :: entries, rfl,
          hnormal.cons ?_ (Or.inr hpinned) hfresh⟩
        rw [hkey]
        exact hseen

theorem normalizeMultiagentRoster_eq_ok
    {py : Python} {workspaceId : String} {self : Option Agent} {view : AgentView}
    {query : ℕ} {multiagent : Option Dict} {normalized : Json}
    (hnormalized : normalizeMultiagentRoster py workspaceId self view query multiagent =
      .ok normalized) :
    RosterOf (NormalEntries view (selfKey self)) normalized := by
  unfold normalizeMultiagentRoster at hnormalized
  cases multiagent with
  | none =>
      cases hnormalized
      exact Or.inl rfl
  | some fields =>
      simp only [bind_eq_ok, raiseIf_eq_ok, pure_eq_ok] at hnormalized
      obtain ⟨-, -, agents, -, -, -, -, -, out, hout, rfl⟩ := hnormalized
      obtain ⟨entries, rfl, hnormal, -⟩ := rosterEntries_eq_ok hout
      exact Or.inr ⟨_, entries, rfl, by simp, hnormal⟩

/-! ## Resolving -/

def ownEntry (agentId : String) (version : ℕ) : Dict :=
  [("type", .str "agent"), ("id", .str agentId), ("version", .int version)]

def resolvedEntry (agentId : String) (version : ℕ) (entry : Dict) : Dict :=
  if isSelfEntry entry then ownEntry agentId version else entry

theorem resolvedEntry_not_self (agentId : String) (version : ℕ) (entry : Dict) :
    isSelfEntry (resolvedEntry agentId version entry) = false := by
  unfold resolvedEntry
  split
  · rfl
  next hself => exact Bool.not_eq_true _ ▸ hself

theorem mapM_resolveRosterEntry
    (agentId : String) (version : ℕ) (entries : List Dict) :
    (entries.map Json.dict).mapM (resolveRosterEntry agentId version) =
      .ok ((entries.map (resolvedEntry agentId version)).map .dict) := by
  induction entries with
  | nil => rfl
  | cons entry rest ih =>
      have hentry : resolveRosterEntry agentId version (.dict entry) =
          .ok (.dict (resolvedEntry agentId version entry)) := by
        by_cases hself : Dict.get entry "type" = .str "self" <;>
          simp [resolveRosterEntry, resolvedEntry, isSelfEntry, ownEntry, hself]
      rw [List.map_cons, List.mapM_cons, hentry, ih]
      rfl

/-- Resolving a roster of objects maps its entries. -/
theorem resolvedMultiagent_of_entries
    {fields : Dict} {entries : List Dict} (agentId : String) (version : ℕ)
    (hentries : Dict.get fields "agents" = .list (entries.map .dict)) :
    resolvedMultiagent (.dict fields) agentId version =
      .ok (.dict (Dict.set fields "agents"
        (.list ((entries.map (resolvedEntry agentId version)).map .dict)))) := by
  simp only [resolvedMultiagent, resolveMultiagentSelfEntries, hentries,
    mapM_resolveRosterEntry]
  rfl

theorem resolvedMultiagent_eq_ok
    {condition : List Dict → Prop} {multiagent resolved : Json} {agentId : String}
    {version : ℕ} (hroster : RosterOf condition multiagent)
    (hresolved : resolvedMultiagent multiagent agentId version = .ok resolved) :
    RosterOf (fun entries => ∃ before, condition before ∧
      entries = before.map (resolvedEntry agentId version)) resolved := by
  obtain rfl | ⟨fields, entries, rfl, hentries, hcondition⟩ := hroster
  · cases hresolved
    exact Or.inl rfl
  · rw [resolvedMultiagent_of_entries agentId version hentries, Except.ok.injEq]
      at hresolved
    subst hresolved
    exact Or.inr ⟨_, _, rfl, by simp, entries, hcondition, rfl⟩

theorem map_resolvedEntry_of_resolved
    {entries : List Dict} (agentId : String) (version : ℕ)
    (hresolved : ∀ entry ∈ entries, isSelfEntry entry = false) :
    entries.map (resolvedEntry agentId version) = entries := by
  rw [List.map_congr_left (g := id) ?_, List.map_id]
  intro entry hentry
  simp [resolvedEntry, hresolved entry hentry]

/-- A roster which is resolved stays as it is. -/
theorem resolvedMultiagent_of_resolved
    {multiagent : Json} (agentId : String) (version : ℕ)
    (hroster : RosterOf (fun entries => ∀ entry ∈ entries, isSelfEntry entry = false)
      multiagent) :
    resolvedMultiagent multiagent agentId version = .ok multiagent := by
  obtain rfl | ⟨fields, entries, rfl, hentries, hresolved⟩ := hroster
  · rfl
  · rw [resolvedMultiagent_of_entries agentId version hentries,
      map_resolvedEntry_of_resolved agentId version hresolved, ← hentries,
      Dict.set_get_self (by simp [hentries])]

/-- Entries which resolving leaves equal are resolved already. -/
theorem not_self_of_equalItems
    {entries : List Dict} {agentId : String} {version : ℕ}
    (hequal : Json.equalItems ((entries.map (resolvedEntry agentId version)).map .dict)
      (entries.map .dict) = true) :
    ∀ entry ∈ entries, isSelfEntry entry = false := by
  induction entries with
  | nil => simp
  | cons entry rest ih =>
      simp only [List.map_cons, Json.equalItems, Bool.and_eq_true] at hequal
      refine List.forall_mem_cons.mpr ⟨?_, ih hequal.2⟩
      by_contra hself
      rw [Bool.not_eq_false] at hself
      have htype : Dict.get entry "type" = .str "self" := by
        simpa [isSelfEntry] using hself
      have hfields := hequal.1
      simp [resolvedEntry, hself, ownEntry, Json.equal, Json.equalFields, htype]
        at hfields

theorem resolvedMultiagent_of_equal
    {condition : List Dict → Prop} {multiagent resolved : Json} {agentId : String}
    {version : ℕ} (hroster : RosterOf condition multiagent)
    (hresolved : resolvedMultiagent multiagent agentId version = .ok resolved)
    (hequal : Json.equal resolved multiagent = true) : resolved = multiagent := by
  obtain rfl | ⟨fields, entries, rfl, hentries, -⟩ := hroster
  · cases hresolved
    rfl
  · rw [resolvedMultiagent_of_entries agentId version hentries, Except.ok.injEq]
      at hresolved
    subst hresolved
    simp only [Json.equal, Bool.and_eq_true] at hequal
    have hagents := ((Json.equalFields_iff _ _).mp hequal.2 _
      (@Dict.mem_of_get _ "agents" (by simp))).2
    simp only [Dict.get_set_same, hentries, Json.equal] at hagents
    rw [map_resolvedEntry_of_resolved agentId version (not_self_of_equalItems hagents),
      ← hentries, Dict.set_get_self (by simp [hentries])]

end ManagedAgents
