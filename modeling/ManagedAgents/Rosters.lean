import ManagedAgents.AgentVersions

/-!
# Rosters of agents

A roster should name plain versions of other agents, or the version it belongs
to.  An update that leaves the roster out takes it over from the version before,
and with it the entry that names this version.
-/

namespace ManagedAgents

open Fallible LabelledRuns ReadCommitted

/-- The entries of a roster. -/
def rosterMembers (multiagent : Json) : List Json :=
  match multiagent.get "agents" with
  | .list items => items
  | _ => []

/-- The entry names the version. -/
def RefersTo (entry : Json) (version : AgentVersionRow) : Prop :=
  entry.get "type" = .str "agent" ∧ entry.get "id" = .str version.agentId ∧
    entry.get "version" = .int version.version

instance
    (entry : Json) (version : AgentVersionRow) :
    Decidable (RefersTo entry version) :=
  inferInstanceAs (Decidable (_ ∧ _))

/-- Every entry names a version that has no roster, or the version that the
roster belongs to, and no two entries name the same agent. -/
def PinnedRoster (rows : AgentRows) (owner : AgentVersionRow) : Prop :=
  (∀ entry ∈ rosterMembers owner.multiagent, ∃ referenced ∈ rows.versions,
    RefersTo entry referenced ∧
      (referenced.multiagent = .null ∨
        referenced.agentId = owner.agentId ∧ referenced.version = owner.version)) ∧
    ((rosterMembers owner.multiagent).map fun entry => entry.get "id").Nodup

instance (rows : AgentRows) (owner : AgentVersionRow) :
    Decidable (PinnedRoster rows owner) :=
  inferInstanceAs (Decidable (_ ∧ _))

def PinnedRosters (rows : AgentRows) : Prop :=
  ∀ owner ∈ rows.versions, owner.multiagent ≠ .null → PinnedRoster rows owner

instance (rows : AgentRows) : Decidable (PinnedRosters rows) :=
  inferInstanceAs (Decidable (∀ _ ∈ _, _))

/-- The roster of the version has an entry for the agent itself. -/
def hasOwnEntry (version : AgentVersionRow) : Bool :=
  (rosterMembers version.multiagent).any fun entry => RefersTo entry version

/-- An update that leaves the roster out is made for a version whose roster has
no entry for the agent itself. -/
def RosterRevisited (call : AgentCall) (_ : AgentView) (current : AgentRows) : Prop :=
  match call.request with
  | .update agentId body =>
      body.multiagent.isNone → ∀ active ∈ current.versions, active.agentId = agentId →
        (active.version : ℤ) = body.version → hasOwnEntry active = false
  | .create _ | .archive _ => True

instance (call : AgentCall) (view : AgentView) (current : AgentRows) :
    Decidable (RosterRevisited call view current) := by
  unfold RosterRevisited
  cases call.request <;> infer_instance

/-! ## Entries of a resolved roster -/

theorem rosterMembers_of_entries
    {fields : Dict} {entries : List Dict}
    (hentries : Dict.get fields "agents" = .list (entries.map .dict)) :
    rosterMembers (.dict fields) = entries.map .dict := by
  simp [rosterMembers, Json.get, hentries]

/-- Entries which stand for different agents do so under another own name that
no entry uses. -/
theorem distinct_of_fresh
    {entries : List Dict} {own fresh : String}
    (hdistinct : (entries.map (entryKey own)).Nodup)
    (hfresh : ∀ entry ∈ entries, isSelfEntry entry = false →
      entryKey fresh entry ≠ fresh) :
    (entries.map (entryKey fresh)).Nodup := by
  rw [List.Nodup, List.pairwise_map] at hdistinct ⊢
  refine hdistinct.imp_of_mem ?_
  intro first second hfirst hsecond hne hsame
  cases hfirstSelf : isSelfEntry first with
  | true =>
      cases hsecondSelf : isSelfEntry second with
      | true => exact hne (by simp [entryKey, hfirstSelf, hsecondSelf])
      | false =>
          refine hfresh second hsecond hsecondSelf ?_
          rw [← hsame]
          simp [entryKey, hfirstSelf]
  | false =>
      cases hsecondSelf : isSelfEntry second with
      | true =>
          refine hfresh first hfirst hfirstSelf ?_
          rw [hsame]
          simp [entryKey, hsecondSelf]
      | false =>
          apply hne
          simpa [entryKey, hfirstSelf, hsecondSelf] using hsame

theorem resolvedEntry_id
    {view : AgentView} {entry : Dict} (agentId : String) (version : ℕ)
    (hentry : isSelfEntry entry = true ∨ PinnedEntry view entry) :
    Dict.get (resolvedEntry agentId version entry) "id" =
      .str (entryKey agentId entry) := by
  rcases hentry with hself | hpinned
  · simp [resolvedEntry, entryKey, hself, ownEntry, Dict.get]
  · have hself := hpinned.not_self
    obtain ⟨query, row, -, -, hid, -⟩ := hpinned
    simp [resolvedEntry, entryKey, hself, hid]

/-- A roster that is normalised and resolved for a new version is pinned. -/
theorem pinned_of_normal
    {view : AgentView} {rows : AgentRows} {own : String} {multiagent : Json}
    {owner : AgentVersionRow} (howner : owner ∈ rows.versions)
    (hviews : ∀ query, ∀ version ∈ (view query).versions, version ∈ rows.versions)
    (hroster : RosterOf (NormalEntries view own) multiagent)
    (hown : own = owner.agentId ∨
      ∀ query, ∀ version ∈ (view query).versions, version.agentId ≠ owner.agentId)
    (hresolved : resolvedMultiagent multiagent owner.agentId owner.version =
      .ok owner.multiagent) : PinnedRoster rows owner := by
  unfold PinnedRoster
  obtain hnull | ⟨fields, entries, hfields, hentries, before, hnormal, rfl⟩ :=
    resolvedMultiagent_eq_ok hroster hresolved
  · simp [hnull, rosterMembers, Json.get]
  · rw [hfields, rosterMembers_of_entries hentries, List.map_map, List.map_map]
    refine ⟨?_, ?_⟩
    · intro entry hentry
      obtain ⟨member, hmember, rfl⟩ := List.mem_map.mp hentry
      rcases hnormal.pinned member hmember with hself | hpinned
      · refine ⟨owner, howner, ?_, Or.inr ⟨rfl, rfl⟩⟩
        simp [RefersTo, resolvedEntry, hself, ownEntry, Json.get, Dict.get]
      · have hself := hpinned.not_self
        obtain ⟨query, row, hrow, htype, hid, hversion, hplain⟩ := hpinned
        refine ⟨row, hviews query row hrow, ?_, Or.inl hplain⟩
        simp [RefersTo, resolvedEntry, hself, Json.get, htype, hid, hversion]
    · have hids : before.map ((fun entry => Json.get entry "id") ∘
          Json.dict ∘ resolvedEntry owner.agentId owner.version) =
          (before.map (entryKey owner.agentId)).map Json.str := by
        rw [List.map_map]
        apply List.map_congr_left
        intro entry hentry
        exact resolvedEntry_id _ _ (hnormal.pinned entry hentry)
      rw [hids]
      refine List.Nodup.map (fun _ _ => Json.str.inj) ?_
      rcases hown with rfl | hfresh
      · exact hnormal.distinct
      · apply distinct_of_fresh hnormal.distinct
        intro entry hentry hself
        rcases hnormal.pinned entry hentry with hother | hpinned
        · rw [hself] at hother
          cases hother
        · obtain ⟨query, row, hrow, -, hid, -⟩ := hpinned
          simpa [entryKey, hself, hid] using hfresh query row hrow

theorem PinnedRoster.mono
    {rows next : AgentRows} {owner : AgentVersionRow} (hpinned : PinnedRoster rows owner)
    (hversions : ∀ version ∈ rows.versions, version ∈ next.versions) :
    PinnedRoster next owner := by
  refine ⟨fun entry hentry => ?_, hpinned.2⟩
  obtain ⟨referenced, hmem, hnames⟩ := hpinned.1 entry hentry
  exact ⟨referenced, hversions referenced hmem, hnames⟩

/-! ## Rosters after a commit -/

theorem pinnedRosters_append
    {rows : AgentRows} {agents : List Agent} {version : AgentVersionRow}
    (hpinned : PinnedRosters rows) :
    PinnedRosters { agents := agents, versions := rows.versions ++ [version] } ↔
      (version.multiagent ≠ .null →
        PinnedRoster { agents := agents, versions := rows.versions ++ [version] }
          version) := by
  constructor
  · exact fun hall => hall version (by simp)
  · intro hversion owner howner
    rcases List.mem_append.mp howner with howner | howner
    · exact fun hroster => (hpinned owner howner hroster).mono
        fun _ hmem => List.mem_append_left _ hmem
    · obtain rfl := List.mem_singleton.mp howner
      exact hversion

theorem AgentCreation.pinned
    {py : Python} {call : AgentCall} {view : AgentView} {current : AgentRows}
    {agent : Agent} {version : AgentVersionRow} (hreads : AgentReads view current)
    (hcreation : AgentCreation py call view current agent version) :
    PinnedRoster
      { agents := current.agents ++ [agent], versions := current.versions ++ [version] }
      version := by
  obtain ⟨body, tools, multiagent, -, -, -, hroster, hresolved, -, -⟩ := hcreation.request
  rw [← hcreation.owner, ← hcreation.number] at hresolved
  refine pinned_of_normal (by simp) ?_ (normalizeMultiagentRoster_eq_ok hroster) ?_
    hresolved
  · intro query row hrow
    exact List.mem_append_left _ ((hreads.kept query).versions row hrow)
  · refine Or.inr fun query row hrow hsame => ?_
    obtain ⟨owner, howner, hid, -⟩ :=
      hreads.invariant.owners row ((hreads.kept query).versions row hrow)
    exact hcreation.fresh owner howner (hid.trans (hsame.trans hcreation.owner))

/-- A roster that is given with an update is pinned. -/
theorem MergedOnto.pinned
    {py : Python} {call : AgentCall} {view : AgentView} {current : AgentRows}
    {agents : List Agent} {body : AgentUpdateRequest} {active version : AgentVersionRow}
    (hreads : AgentReads view current) (hgiven : body.multiagent ≠ none)
    (hmerged : MergedOnto py call view body active version) :
    PinnedRoster { agents := agents, versions := current.versions ++ [version] }
      version := by
  obtain ⟨howner, -, hnumber⟩ := hmerged.fields
  obtain ⟨held, update, config, resolved, hheld, hupdate, hconfig, -, hresolved,
    hversion⟩ := hmerged
  have hmultiagent : version.multiagent = resolved := by rw [hversion]
  obtain ⟨-, hheldId, -⟩ := mustGetAgent_eq_ok hheld
  rw [← howner, ← hnumber, ← hmultiagent] at hresolved
  rcases mergedRoster hupdate hconfig with ⟨hnone, -⟩ | ⟨-, hroster⟩
  · exact absurd hnone hgiven
  · refine pinned_of_normal (by simp) ?_ hroster (Or.inl (hheldId.trans howner.symm))
      hresolved
    intro query row hrow
    exact List.mem_append_left _ ((hreads.kept query).versions row hrow)

/-- A roster that is left out is taken over. -/
theorem MergedOnto.taken_over
    {py : Python} {call : AgentCall} {view : AgentView} {body : AgentUpdateRequest}
    {active version : AgentVersionRow} (hnone : body.multiagent = none)
    (hactive : RosterOf (fun entries => ∀ entry ∈ entries, isSelfEntry entry = false)
      active.multiagent)
    (hmerged : MergedOnto py call view body active version) :
    version.multiagent = active.multiagent := by
  obtain ⟨held, update, config, resolved, -, hupdate, hconfig, -, hresolved, hversion⟩ :=
    hmerged
  rcases mergedRoster hupdate hconfig with ⟨-, hsame⟩ | ⟨hgiven, -⟩
  · rw [hsame, resolvedMultiagent_of_resolved _ _ hactive, Except.ok.injEq] at hresolved
    rw [hversion, ← hresolved]
  · exact absurd hnone hgiven

/-- The roster that is taken over stays pinned unless it names its old version. -/
theorem taken_over_pinned_iff
    {current : AgentRows} {agents : List Agent} {active version : AgentVersionRow}
    (hhistory : AgentHistory
      { agents := agents, versions := current.versions ++ [version] })
    (hpinned : PinnedRosters current) (hactive : active ∈ current.versions)
    (hnumber : version.version = active.version + 1)
    (hsame : version.multiagent = active.multiagent) :
    (version.multiagent ≠ .null →
      PinnedRoster { agents := agents, versions := current.versions ++ [version] }
        version) ↔ hasOwnEntry active = false := by
  rw [← Bool.not_eq_true, hasOwnEntry, List.any_eq_true]
  constructor
  · rintro hroster ⟨entry, hentry, hown⟩
    simp only [decide_eq_true_eq] at hown
    have hsome : version.multiagent ≠ .null := by
      intro hnull
      rw [← hsame, hnull] at hentry
      simp [rosterMembers, Json.get] at hentry
    rw [← hsame] at hentry
    obtain ⟨referenced, hmem, ⟨-, hid, hversion⟩, hplain⟩ :=
      (hroster hsome).1 entry hentry
    rw [hown.2.1, Json.str.injEq] at hid
    rw [hown.2.2, Json.int.injEq, Nat.cast_inj] at hversion
    rcases hplain with hnull | ⟨-, hself⟩
    · have hrow : referenced = active := hhistory.version_unique hmem
        (List.mem_append_left _ hactive) hid.symm hversion.symm
      exact hsome (by rw [hsame, ← hrow, hnull])
    · omega
  · intro hnone hsome
    obtain ⟨hmembers, hdistinct⟩ := hpinned active hactive (hsame ▸ hsome)
    rw [← hsame] at hdistinct
    refine ⟨?_, hdistinct⟩
    intro entry hentry
    rw [hsame] at hentry
    obtain ⟨referenced, hmem, hrefers, hplain⟩ := hmembers entry hentry
    refine ⟨referenced, List.mem_append_left _ hmem, hrefers, ?_⟩
    rcases hplain with hnull | ⟨hid, hversion⟩
    · exact Or.inl hnull
    · refine absurd ⟨entry, hentry, ?_⟩ hnone
      rw [decide_eq_true_eq]
      exact ⟨hrefers.1, hid ▸ hrefers.2.1, hversion ▸ hrefers.2.2⟩

theorem AgentCommit.pinned_iff
    {py : Python} {call : AgentCall} {view : AgentView} {current next : AgentRows}
    (hreads : AgentReads view current) (hpinned : PinnedRosters current)
    (hcommitted : AgentCommit py call view current next) :
    PinnedRosters next ↔ RosterRevisited call view current := by
  have hhistory := hcommitted.history hreads.invariant
  cases hcommitted with
  | created agent version hcreation =>
      obtain ⟨body, -, -, hrequest, -⟩ := hcreation.request
      rw [pinnedRosters_append hpinned, RosterRevisited, hrequest]
      exact iff_of_true (fun _ => hcreation.pinned hreads) trivial
  | updated agent active version columns hupdated =>
      obtain ⟨body, hrequest, hnamed, hmerged⟩ := hupdated.request
      obtain ⟨howner, -, hnumber⟩ := hmerged.fields
      rw [pinnedRosters_append hpinned, RosterRevisited, hrequest]
      cases hbody : body.multiagent with
      | some given =>
          simp only [hbody, Option.isNone_some, Bool.false_eq_true, false_implies]
          exact iff_of_true (fun _ => hmerged.pinned hreads (by simp [hbody])) trivial
      | none =>
          have hroster := hreads.invariant.rosters active hupdated.activeMem
          rw [taken_over_pinned_iff hhistory hpinned hupdated.activeMem hnumber
            (hmerged.taken_over hbody hroster)]
          simp only [hbody, Option.isNone_none, true_implies]
          constructor
          · intro hnone other hother hotherOwner hotherNumber
            have hsame : other = active := hreads.invariant.version_unique hother
              hupdated.activeMem (hotherOwner.trans hupdated.activeOwner.symm)
              (by rw [hnamed] at hotherNumber; exact_mod_cast hotherNumber)
            rw [hsame]
            exact hnone
          · exact fun hall =>
              hall active hupdated.activeMem hupdated.activeOwner hnamed.symm
  | archived agentId now hrequest =>
      rw [RosterRevisited, hrequest]
      exact iff_of_true hpinned trivial

/-- The rosters of all committed versions are pinned exactly if every update
that commits gives a roster or is made for a version whose roster does not name
that version. -/
theorem rosters_pinned_iff
    {py : Python} {calls : List (AgentCall × List ℕ)} {last : AgentWorld}
    (hrun : run (agentStep py) AgentWorld.start calls = some last) :
    (∀ rows ∈ last.history, PinnedRosters rows) ↔
      AllSteps (agentStep py) (OnCommit (AgentCall.body py) RosterRevisited)
        AgentWorld.start calls := by
  have hiff := @run_iff _ _ (AgentCall.body py) AgentHistory EarlierAgents
    RosterRevisited PinnedRosters EarlierAgents.refl EarlierAgents.trans
    (fun call view current next hreads hbody =>
      ⟨(AgentCall.committed hreads hbody).history hreads.invariant,
        (AgentCall.committed hreads hbody).earlier hreads.invariant⟩)
    (fun call view current next hreads _ hcurrent hbody =>
      (AgentCall.committed hreads hbody).pinned_iff hreads hcurrent)
    _ _ _ AgentWorld.start_ordered hrun
  rw [hiff]
  apply and_iff_right
  simp [Timeline.history, AgentWorld.start, PinnedRosters]

/-- A roster that is given again. -/
def sampleRevisited : AgentCall × List ℕ :=
  sampleAgentCall "b" (.update "agt_a0"
    { version := 1, name := some (some "chief"), multiagent := some (some sampleRoster) })

def revisitedAgents : AgentWorld :=
  (run (agentStep samplePython) AgentWorld.start [sampleCoordinator, sampleRevisited]).get
    (by decide)

theorem sample_rosters_pinned_iff : PinnedRosters revisitedAgents.current :=
  (@rosters_pinned_iff samplePython [sampleCoordinator, sampleRevisited] revisitedAgents
    (Option.some_get _).symm).mpr (by decide) _ List.mem_cons_self

/-- The second version of the renamed agent names the first one. -/
theorem renamed_roster_not_pinned :
    run (agentStep samplePython) AgentWorld.start
        [sampleCoordinator, sampleRename, sampleAgentCall "c" (.archive "agt_a0")] =
      some renamedAgents ∧ ¬PinnedRosters renamedAgents.current :=
  ⟨(Option.some_get _).symm, by decide⟩

end ManagedAgents
