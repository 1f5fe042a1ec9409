import ManagedAgents.AgentVersions

/-!
# Rosters and skills of a body sent again

The entries of a roster and of the skills are completed as before if the agents and the
skills which they name are still there as they were.
-/

namespace ManagedAgents

open Fallible

/-! ## What a body refers to -/

/-- The entry is in the roster of the body. -/
def AgentUpdateRequest.HasEntry (body : AgentUpdateRequest) (entry : Dict) : Prop :=
  ∃ fields items item, body.multiagent = some (some fields) ∧
    rosterAgents fields = .ok items ∧ item ∈ items ∧ rosterEntry item = .ok entry

/-- The skill is named by an entry of the body. -/
def AgentUpdateRequest.NamesSkill (body : AgentUpdateRequest) (skillId : String) : Prop :=
  ∃ skills entry, body.skills = some (some skills) ∧ entry ∈ skills ∧
    (Dict.get entry "id").or (Dict.get entry "skill_id") = .str skillId

/-- The queries for the agent and its versions find the same rows. -/
structure SameAgent (workspaceId agentId : String) (before after : AgentRows) : Prop where
  agent : getAgent after workspaceId agentId = getAgent before workspaceId agentId
  versions : ∀ version, getAgentVersion after agentId version workspaceId =
    getAgentVersion before agentId version workspaceId

/-- The queries for the skill and its versions find the same rows. -/
structure SameSkill (workspaceId skillId : String) (before after : List Resource) :
    Prop where
  skill : getResource after skillId (skillQuery workspaceId) =
    getResource before skillId (skillQuery workspaceId)
  versions : ∀ version,
    getResourceVersion after { skillQuery workspaceId with
      resourceType := .skillVersion, parentId := some skillId } version =
    getResourceVersion before { skillQuery workspaceId with
      resourceType := .skillVersion, parentId := some skillId } version

/-! ## Rosters -/

section

variable {py : Python} {workspaceId : String} {self again : Option Agent}
  {view later : AgentView} {query : ℕ} {seen : List String}

/-- An entry is pinned as before if its agent is still there, with the version that the
entry names, or with the same active version. -/
theorem pinRosterEntry_again
    {entry : Dict} {result : String × Dict}
    (hagent : ∀ agentId referenced, Dict.get entry "id" = .str agentId →
      getReferencedAgent (view query) workspaceId self agentId = some referenced →
      ∃ found, getReferencedAgent (later query) workspaceId again agentId = some found ∧
        found.archivedAt = referenced.archivedAt ∧
        found.workspaceId = referenced.workspaceId ∧
        (Dict.get entry "version" = .null →
          found.activeVersion = referenced.activeVersion) ∧
        ∀ number version,
          getAgentVersion (view (query + 1)) agentId number referenced.workspaceId =
            some version →
          getAgentVersion (later (query + 1)) agentId number referenced.workspaceId =
            some version)
    (hpin : pinRosterEntry py workspaceId self view query seen entry = .ok result) :
    pinRosterEntry py workspaceId again later query seen entry = .ok result := by
  unfold pinRosterEntry at hpin ⊢
  obtain ⟨agentId, hid, hpin⟩ := bind_eq_ok.mp hpin
  refine bind_eq_ok.mpr ⟨agentId, hid, ?_⟩
  have hget : Dict.get entry "id" = .str agentId := by
    unfold rosterEntryId at hid
    split at hid
    next text htext =>
      split at hid
      · cases hid
      · cases hid
        exact htext
    next => cases hid
  split at hpin
  next => cases hpin
  next referenced hreferenced =>
    obtain ⟨found, hfound, harchived, hworkspace, hactive, hversions⟩ :=
      hagent agentId referenced hget hreferenced
    rw [hfound]
    simp only [bind_eq_ok, harchived, hworkspace] at hpin ⊢
    obtain ⟨⟨⟩, hstands, number, hnumber, ⟨⟩, hpositive, hpin⟩ := hpin
    refine ⟨(), hstands, number, ?_, (), hpositive, ?_⟩
    · unfold pinnedVersion at hnumber ⊢
      split at hnumber
      next hnull => rwa [if_pos hnull, hactive hnull]
      next hgiven => rwa [if_neg hgiven]
    · split at hpin
      next => cases hpin
      next version hversion =>
        rw [hversions number version hversion]
        exact hpin

theorem rosterEntries_again
    {sawSelf : Bool} {items out : List Json} (hself : selfKey again = selfKey self)
    (hpin : ∀ item ∈ items, ∀ entry, rosterEntry item = .ok entry →
      Dict.get entry "type" ≠ .str "self" → ∀ query seen result,
        pinRosterEntry py workspaceId self view query seen entry = .ok result →
        pinRosterEntry py workspaceId again later query seen entry = .ok result)
    (hentries : rosterEntries py workspaceId self view query seen sawSelf items =
      .ok out) :
    rosterEntries py workspaceId again later query seen sawSelf items = .ok out := by
  induction items generalizing query seen sawSelf out with
  | nil => exact hentries
  | cons item rest ih =>
      rw [List.forall_mem_cons] at hpin
      simp only [rosterEntries, bind_eq_ok, hself] at hentries ⊢
      obtain ⟨entry, hentry, hentries⟩ := hentries
      refine ⟨entry, hentry, ?_⟩
      split at hentries
      next htype =>
        simp only [bind_eq_ok] at hentries
        obtain ⟨⟨⟩, honce, ⟨⟩, hfresh, tail, htail, hout⟩ := hentries
        rw [if_pos htype]
        simp only [bind_eq_ok]
        exact ⟨(), honce, (), hfresh, tail, ih hpin.2 htail, hout⟩
      next htype =>
        simp only [bind_eq_ok] at hentries
        obtain ⟨⟨⟩, hagent, pinned, hpinned, tail, htail, hout⟩ := hentries
        rw [if_neg htype]
        simp only [bind_eq_ok]
        exact ⟨(), hagent, pinned, hpin.1 entry hentry htype _ _ _ hpinned, tail,
          ih hpin.2 htail, hout⟩

/-- An item of a roster is left as it is, as an entry for `self`, or is pinned. -/
def EntryResult (py : Python) (workspaceId : String) (self : Option Agent)
    (view : AgentView) (item result : Json) : Prop :=
  ∃ entry, rosterEntry item = .ok entry ∧
    (Dict.get entry "type" = .str "self" ∧ result = .dict entry ∨
      Dict.get entry "type" ≠ .str "self" ∧ ∃ query seen pinned,
        pinRosterEntry py workspaceId self view query seen entry = .ok pinned ∧
        result = .dict pinned.2)

theorem rosterEntries_results
    {sawSelf : Bool} {items out : List Json}
    (hentries : rosterEntries py workspaceId self view query seen sawSelf items =
      .ok out) :
    (∀ item ∈ items, ∃ result ∈ out, EntryResult py workspaceId self view item result) ∧
      ∀ result ∈ out, ∃ item ∈ items,
        EntryResult py workspaceId self view item result := by
  induction items generalizing query seen sawSelf out with
  | nil =>
      cases hentries
      simp
  | cons item rest ih =>
      have hsplit : ∃ result tail query seen sawSelf,
          EntryResult py workspaceId self view item result ∧
          rosterEntries py workspaceId self view query seen sawSelf rest = .ok tail ∧
          result :: tail = out := by
        simp only [rosterEntries, bind_eq_ok] at hentries
        obtain ⟨entry, hentry, hentries⟩ := hentries
        split at hentries
        next htype =>
          simp only [bind_eq_ok, pure_eq_ok] at hentries
          obtain ⟨-, -, -, -, tail, htail, hout⟩ := hentries
          exact ⟨_, tail, _, _, _, ⟨entry, hentry, Or.inl ⟨htype, rfl⟩⟩, htail, hout⟩
        next htype =>
          simp only [bind_eq_ok, pure_eq_ok] at hentries
          obtain ⟨-, -, pinned, hpin, tail, htail, hout⟩ := hentries
          exact ⟨_, tail, _, _, _,
            ⟨entry, hentry, Or.inr ⟨htype, _, _, pinned, hpin, rfl⟩⟩, htail, hout⟩
      obtain ⟨result, tail, _, _, _, hresult, htail, rfl⟩ := hsplit
      obtain ⟨hitems, hresults⟩ := ih htail
      constructor
      · refine List.forall_mem_cons.mpr ⟨⟨result, List.mem_cons_self, hresult⟩, ?_⟩
        intro other hother
        obtain ⟨found, hfound, hother⟩ := hitems other hother
        exact ⟨found, List.mem_cons_of_mem _ hfound, hother⟩
      · refine List.forall_mem_cons.mpr ⟨⟨item, List.mem_cons_self, hresult⟩, ?_⟩
        intro other hother
        obtain ⟨found, hfound, hother⟩ := hresults other hother
        exact ⟨found, List.mem_cons_of_mem _ hfound, hother⟩

theorem normalizeMultiagentRoster_some
    {fields : Dict} {normalized : Json}
    (hnormalized : normalizeMultiagentRoster py workspaceId self view query
      (some fields) =
      .ok normalized) :
    ∃ items out, rosterAgents fields = .ok items ∧
      rosterEntries py workspaceId self view query [] false items = .ok out ∧
      normalized = .dict (Dict.set fields "agents" (.list out)) := by
  simp only [normalizeMultiagentRoster, bind_eq_ok, pure_eq_ok] at hnormalized
  obtain ⟨-, -, items, hitems, -, -, -, -, out, hout, rfl⟩ := hnormalized
  exact ⟨items, out, hitems, hout, rfl⟩

theorem normalizeMultiagentRoster_again
    {multiagent : Option Dict} {normalized : Json} (hself : selfKey again = selfKey self)
    (hpin : ∀ fields items item entry, multiagent = some fields →
      rosterAgents fields = .ok items → item ∈ items → rosterEntry item = .ok entry →
      Dict.get entry "type" ≠ .str "self" → ∀ query seen result,
        pinRosterEntry py workspaceId self view query seen entry = .ok result →
        pinRosterEntry py workspaceId again later query seen entry = .ok result)
    (hnormalized : normalizeMultiagentRoster py workspaceId self view query multiagent =
      .ok normalized) :
    normalizeMultiagentRoster py workspaceId again later query multiagent =
      .ok normalized := by
  unfold normalizeMultiagentRoster at hnormalized ⊢
  cases multiagent with
  | none => exact hnormalized
  | some fields =>
      simp only [bind_eq_ok] at hnormalized ⊢
      obtain ⟨⟨⟩, htype, agents, hagents, ⟨⟩, hsome, ⟨⟩, hfew, out, hout, hnormalized⟩ :=
        hnormalized
      refine ⟨(), htype, agents, hagents, (), hsome, (), hfew, out, ?_, hnormalized⟩
      exact rosterEntries_again hself
        (fun item hitem entry => hpin fields agents item entry rfl hagents hitem) hout

end

/-! ## Skills -/

section

variable {py : Python} {workspaceId : String} {resources later : ℕ → List Resource}

theorem normalizeSkillRef_again
    {query : ℕ} {entry : Dict}
    (hskills : ∀ skillId query,
      (Dict.get entry "id").or (Dict.get entry "skill_id") = .str skillId →
      SameSkill workspaceId skillId (resources query) (later query)) :
    normalizeSkillRef py workspaceId later query entry =
      normalizeSkillRef py workspaceId resources query entry := by
  unfold normalizeSkillRef
  simp only
  split
  next skillId hid =>
    have hcheck : ∀ version, checkCustomSkill py workspaceId later query skillId version =
        checkCustomSkill py workspaceId resources query skillId version := by
      intro version
      unfold checkCustomSkill
      rw [(hskills skillId query hid).skill]
      simp only [(hskills skillId (query + 1) hid).versions]
    simp only [hcheck]
  next => rfl

theorem skillRefs_again
    {query : ℕ} {seen : List (String × String × String)} {skills : List Dict}
    (hskills : ∀ entry ∈ skills, ∀ skillId query,
      (Dict.get entry "id").or (Dict.get entry "skill_id") = .str skillId →
      SameSkill workspaceId skillId (resources query) (later query)) :
    skillRefs py workspaceId later query seen skills =
      skillRefs py workspaceId resources query seen skills := by
  induction skills generalizing query seen with
  | nil => rfl
  | cons entry rest ih =>
      rw [List.forall_mem_cons] at hskills
      simp only [skillRefs, normalizeSkillRef_again hskills.1, ih hskills.2]

end

end ManagedAgents
