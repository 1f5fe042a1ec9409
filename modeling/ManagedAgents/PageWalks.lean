import ManagedAgents.CommittedStates
import ManagedAgents.PageCursors

/-!
# Walks over all pages

A client that follows `next_page` sees every item once and in order, on pages of
the size that it asked for.
-/

namespace ManagedAgents

open OffsetPages

variable {Item : Type}

/-- The responses that a client gets from the first page to the one without a
cursor. -/
def WalkVisits
    (endpoint : Time → Option String → Except HTTPException (ListResponse Item))
    (clock : ℕ → Time) (responses : List (ListResponse Item)) : Prop :=
  ∃ patience,
    visited (fun request page => (endpoint (clock request) page).toOption)
      ListResponse.nextPage patience 0 none = some responses

theorem walkReturns_iff
    {endpoint : Time → Option String → Except HTTPException (ListResponse Item)}
    {clock : ℕ → Time} {items : List Item} :
    WalkReturns endpoint clock items ↔
      ∃ responses, WalkVisits endpoint clock responses ∧
        responses.flatMap ListResponse.data = items := by
  unfold WalkReturns Collects served WalkVisits
  simp only [follow_map, Option.map_eq_some_iff]
  constructor
  · rintro ⟨patience, responses, hvisited, hitems⟩
    exact ⟨responses, ⟨patience, hvisited⟩, hitems⟩
  · rintro ⟨responses, ⟨patience, hvisited⟩, hitems⟩
    exact ⟨patience, responses, hvisited, hitems⟩

variable [HasId Item]

/-- What one call promises about its page. -/
structure PageShape (pageSize : ℕ) (response : ListResponse Item) : Prop where
  size : response.data.length ≤ pageSize
  full : response.nextPage ≠ none → response.data.length = pageSize
  hasMore : response.hasMore = true ↔ response.nextPage ≠ none

theorem paginate_shape
    {py : Python} {now : Time} {allItems : List Item} {limit : Option ℤ}
    {page : Option String} {maxLimit : ℤ} {response : ListResponse Item}
    (hpage : paginate py now allItems limit page maxLimit = .ok response) :
    PageShape (pageSizeOf limit maxLimit) response := by
  unfold paginate at hpage
  obtain ⟨offset, -, hpage⟩ := Fallible.bind_eq_ok.mp hpage
  obtain rfl := Except.ok.inj hpage
  refine ⟨List.length_take_le _ _, fun hmore => ?_, ?_⟩
  · have hnext : offset + pageSizeOf limit maxLimit < allItems.length := by
      by_contra hlast
      exact hmore (if_neg hlast)
    have hdrop := List.length_drop (i := offset) (l := allItems)
    exact List.length_take_of_le (by omega)
  · exact Option.isSome_iff_ne_none

/-- A client that uses its cursors in time gets to the end.  It has seen the list
then, on full pages up to the last one. -/
theorem paginate_enumerates
    (py : Python) (allItems : List Item) (limit : Option ℤ) (maxLimit : ℤ)
    {clock : ℕ → Time} (hclock : WalkedInTime clock limit allItems.length maxLimit) :
    (∃ responses,
      WalkVisits (fun now page => paginate py now allItems limit page maxLimit) clock
          responses ∧
        responses.flatMap ListResponse.data = allItems ∧
        (∀ response ∈ responses.dropLast,
          response.data.length = pageSizeOf limit maxLimit) ∧
        ∀ response ∈ responses,
          response.data.length ≤ pageSizeOf limit maxLimit ∧
            (response.hasMore = true ↔ response.nextPage ≠ none)) ∧
      ∀ (offset : ℕ) (handed now : Time),
        nowEpochSeconds now < nowEpochSeconds handed + PAGE_CURSOR_TTL_SECONDS →
          decodePage py (some (encodePage py offset handed)) now = .ok offset := by
  have hreturns : WalkReturns
      (fun now page => paginate py now allItems limit page maxLimit) clock allItems :=
    walkReturns_paginate_iff.mpr ⟨rfl, hclock⟩
  obtain ⟨responses, hvisits, hitems⟩ := walkReturns_iff.mp hreturns
  constructor
  · obtain ⟨hasked, hcursors, -⟩ := visited_spec hvisits.choose_spec
    have hshape : ∀ response ∈ responses,
        PageShape (pageSizeOf limit maxLimit) response := by
      intro response hresponse
      obtain ⟨request, page, hask⟩ := hasked response hresponse
      dsimp only at hask
      cases hpage : paginate py (clock request) allItems limit page maxLimit with
      | error error =>
          rw [hpage] at hask
          cases hask
      | ok answer =>
          rw [hpage] at hask
          obtain rfl : answer = response := Option.some.inj hask
          exact paginate_shape hpage
    refine ⟨responses, hvisits, hitems, fun response hresponse => ?_,
      fun response hresponse => ?_⟩
    · have hearlier := List.dropLast_subset _ hresponse
      exact (hshape response hearlier).full (hcursors response hresponse)
    · exact ⟨(hshape response hresponse).size, (hshape response hresponse).hasMore⟩
  · intro offset handed now hvalid
    rw [decodePage_encodePage, if_neg (Int.not_le.mpr hvalid)]

def sampleItems : List Dict :=
  [[("id", .str "a")], [("id", .str "b")], [("id", .str "c")]]

theorem sample_paginate_enumerates :
    ∃ responses : List (ListResponse Dict),
      responses.flatMap ListResponse.data = sampleItems ∧
        ∀ response ∈ responses.dropLast, response.data.length = 2 := by
  have hclock : WalkedInTime (fun _ => 0) (some 2) sampleItems.length 100 :=
    fun _ _ => lt_add_of_pos_right _ (by decide)
  obtain ⟨⟨responses, -, hitems, hfull, -⟩, -⟩ :=
    paginate_enumerates samplePython sampleItems (some 2) 100 hclock
  exact ⟨responses, hitems, hfull⟩

end ManagedAgents
