import ManagedAgents.PageWalks

/-!
# Pages around an item

With `after_id` a client gets the items right after the one it names.  With
`before_id` it gets the items right before only where more than a page of them is
left, since the page is cut forward from an offset that stops at zero.
-/

namespace ManagedAgents

open Fallible OffsetPages

variable {Item : Type} [HasId Item]

/-- Every item has an id, and no two have the same. -/
structure UniqueIds (items : List Item) : Prop where
  named : ∀ item ∈ items, ∃ id, HasId.idOf item = some id
  nodup : (items.map HasId.idOf).Nodup

/-- The page has these items, and tells whether there are more of them. -/
def Shows (answer : Except HTTPException (ListResponse Item)) (items : List Item)
    (more : Prop) : Prop :=
  ∃ response, answer = .ok response ∧ response.data = items ∧
    (response.hasMore = true ↔ more)

/-- The page at an offset. -/
def pageAt (items : List Item) (size offset : ℕ) : ListResponse Item :=
  ListResponse.fromItems ((items.drop offset).take size)
    (offset + size < items.length) none

/-! ## The cursor of an item -/

section

variable {items before after : List Item} {item : Item} {id : String}

theorem UniqueIds.indexOf_eq
    (hdistinct : UniqueIds items) (hitems : items = before ++ item :: after)
    (hid : HasId.idOf item = some id) : indexOf items id = .ok before.length := by
  subst hitems
  have hnodup := hdistinct.nodup
  rw [List.map_append, List.map_cons] at hnodup
  have hearlier : ∀ other ∈ before, ¬ HasId.idOf other = some id := by
    intro other hother hsame
    have hmem : HasId.idOf other ∈ before.map HasId.idOf := List.mem_map_of_mem hother
    have hne := (List.nodup_append.mp hnodup).2.2 _ hmem _ List.mem_cons_self
    exact hne (hsame.trans hid.symm)
  have hfind : (before ++ item :: after).findIdx?
      (fun item => decide (HasId.idOf item = some id)) = some before.length := by
    rw [List.findIdx?_append, List.findIdx?_cons, if_pos (decide_eq_true hid),
      List.findIdx?_eq_none_iff.mpr fun other hother =>
        decide_eq_false (hearlier other hother)]
    simp
  unfold indexOf
  rw [hfind]

theorem indexOf_lt {index : ℕ} (hindex : indexOf items id = .ok index) :
    index < items.length := by
  unfold indexOf at hindex
  cases hfind : items.findIdx? (fun item => decide (HasId.idOf item = some id)) with
  | none =>
      rw [hfind] at hindex
      cases hindex
  | some found =>
      rw [hfind] at hindex
      obtain rfl := Except.ok.inj hindex
      exact (List.findIdx?_eq_some_iff_getElem.mp hfind).1

variable {limit : Option ℤ} {maxLimit : ℤ}

theorem paginateById_after_eq (hne : id ≠ "") :
    paginateById items limit (some id) none maxLimit =
      (indexAfter items id).map (pageAt items (pageSizeOf limit maxLimit)) := by
  have hcursor : (some id).filter (· ≠ "") = some id := by simp [hne]
  unfold paginateById
  rw [hcursor]
  change indexAfter items id >>= (fun offset =>
    .ok (pageAt items (pageSizeOf limit maxLimit) offset)) = _
  cases indexAfter items id <;> rfl

theorem paginateById_before_eq (hne : id ≠ "") :
    paginateById items limit none (some id) maxLimit =
      (indexOf items id).map fun index =>
        pageAt items (pageSizeOf limit maxLimit) (index - pageSizeOf limit maxLimit) := by
  have hcursor : (some id).filter (· ≠ "") = some id := by simp [hne]
  unfold paginateById
  rw [hcursor]
  change (indexOf items id).map (· - pageSizeOf limit maxLimit) >>= (fun offset =>
    .ok (pageAt items (pageSizeOf limit maxLimit) offset)) = _
  cases indexOf items id <;> rfl

theorem paginateById_after
    (hdistinct : UniqueIds items) (hitems : items = before ++ item :: after)
    (hid : HasId.idOf item = some id) (hne : id ≠ "") :
    paginateById items limit (some id) none maxLimit =
      .ok (pageAt items (pageSizeOf limit maxLimit) (before.length + 1)) := by
  rw [paginateById_after_eq hne, indexAfter, hdistinct.indexOf_eq hitems hid]
  rfl

theorem paginateById_before
    (hdistinct : UniqueIds items) (hitems : items = before ++ item :: after)
    (hid : HasId.idOf item = some id) (hne : id ≠ "") :
    paginateById items limit none (some id) maxLimit =
      .ok (pageAt items (pageSizeOf limit maxLimit)
        (before.length - pageSizeOf limit maxLimit)) := by
  rw [paginateById_before_eq hne, hdistinct.indexOf_eq hitems hid]
  rfl

theorem paginateById_after_empty :
    paginateById items limit (some "") none maxLimit =
      .ok (pageAt items (pageSizeOf limit maxLimit) 0) := rfl

theorem paginateById_before_empty :
    paginateById items limit none (some "") maxLimit =
      .ok (pageAt items (pageSizeOf limit maxLimit) 0) := rfl

end

/-! ## One page -/

section

variable {items before after : List Item} {item : Item} {size : ℕ}

theorem shows_pageAt_iff
    {offset : ℕ} {shown : List Item} {more : Prop} :
    Shows (.ok (pageAt items size offset)) shown more ↔
      (items.drop offset).take size = shown ∧ (offset + size < items.length ↔ more) := by
  constructor
  · rintro ⟨response, hresponse, hdata, hmore⟩
    obtain rfl := Except.ok.inj hresponse
    exact ⟨hdata, decide_eq_true_iff.symm.trans hmore⟩
  · rintro ⟨hdata, hmore⟩
    exact ⟨_, rfl, hdata, decide_eq_true_iff.trans hmore⟩

/-- Behind the item. -/
theorem shows_pageAt_after :
    Shows (.ok (pageAt (before ++ item :: after) size (before.length + 1)))
      (after.take size) (size < after.length) := by
  have hdrop : (before ++ item :: after).drop (before.length + 1) = after := by
    simp [List.drop_append]
  rw [shows_pageAt_iff, hdrop, List.length_append, List.length_cons]
  exact ⟨rfl, by omega⟩

/-- In front of the item, if a whole page fits there and something is left. -/
theorem shows_pageAt_before
    (hsize : size < before.length) :
    Shows (.ok (pageAt (before ++ item :: after) size (before.length - size)))
      (before.rtake size) (size < before.length) := by
  rw [shows_pageAt_iff, List.drop_append_of_le_length (by omega),
    List.take_append_of_le_length (by rw [List.length_drop]; omega),
    List.take_of_length_le (by rw [List.length_drop]; omega), List.length_append,
    List.length_cons]
  exact ⟨rfl, by omega⟩

/-- The first page is never the page behind an item. -/
theorem not_shows_first_after
    (hnodup : (before ++ item :: after).Nodup) (hsize : 0 < size) {more : Prop} :
    ¬ Shows (.ok (pageAt (before ++ item :: after) size 0)) (after.take size) more := by
  intro hshows
  have hdata := (shows_pageAt_iff.mp hshows).1
  obtain ⟨size, rfl⟩ := Nat.exists_eq_add_one.mpr hsize
  obtain ⟨-, hback, hapart⟩ := List.nodup_append.mp hnodup
  cases before with
  | nil =>
      have hmem : item ∈ after.take (size + 1) := hdata ▸ List.mem_cons_self
      exact (List.nodup_cons.mp hback).1 (List.mem_of_mem_take hmem)
  | cons first rest =>
      have hmem : first ∈ after.take (size + 1) := hdata ▸ List.mem_cons_self
      exact hapart _ List.mem_cons_self _
        (List.mem_cons_of_mem item (List.mem_of_mem_take hmem)) rfl

/-- It is never the page in front of an item either. -/
theorem not_shows_first_before
    (hnodup : (before ++ item :: after).Nodup) (hsize : 0 < size) :
    ¬ Shows (.ok (pageAt (before ++ item :: after) size 0)) (before.rtake size)
      (size < before.length) := by
  intro hshows
  obtain ⟨hdata, hmore⟩ := shows_pageAt_iff.mp hshows
  have hlength := congrArg List.length hdata
  have hhead := congrArg List.head? hdata
  simp only [List.drop_zero, List.rtake, List.length_take, List.length_drop,
    List.length_append, List.length_cons] at hlength
  have hwithin : before[before.length - size]? =
      (before ++ item :: after)[before.length - size]? :=
    (List.getElem?_append_left (by omega)).symm
  have hpos : 0 < (before ++ item :: after).length := by simp
  rw [List.drop_zero, List.rtake, List.head?_take, if_neg hsize.ne', List.head?_drop,
    List.head?_eq_getElem?, hwithin] at hhead
  have hstart := (List.getElem?_inj hpos hnodup).mp hhead
  rw [List.length_append, List.length_cons] at hmore
  omega

end

/-! ## Walks forward -/

/-- What a client reads that goes on after the last item. -/
def readForward (response : ListResponse Item) : Page String Item where
  items := response.data
  next := if response.hasMore then response.lastId else none

def idAt (items : List Item) (index : ℕ) : Option String :=
  items[index]?.bind HasId.idOf

/-- The ids as cursors. -/
def idCodec (items : List Item) : Codec String where
  encode _ offset := (idAt items (offset - 1)).getD ""
  decode _ cursor :=
    match cursor with
    | none => some 0
    | some id => if id = "" then some 0 else (indexAfter items id).toOption

section

variable {items : List Item} {limit : Option ℤ} {maxLimit : ℤ}

theorem UniqueIds.idAt_eq
    (hdistinct : UniqueIds items) {index : ℕ} (hindex : index < items.length) :
    ∃ id, idAt items index = some id ∧
      (id ≠ "" → indexAfter items id = .ok (index + 1)) := by
  obtain ⟨id, hid⟩ := hdistinct.named items[index] (List.getElem_mem hindex)
  have hsplit : items = items.take index ++ items[index] :: items.drop (index + 1) := by
    rw [List.cons_getElem_drop_succ, List.take_append_drop]
  have hat : idAt items index = some id := by
    unfold idAt
    rw [List.getElem?_eq_getElem hindex]
    exact hid
  refine ⟨id, hat, fun _ => ?_⟩
  unfold indexAfter
  rw [hdistinct.indexOf_eq hsplit hid, List.length_take_of_le hindex.le]
  rfl

/-- A client that goes forward walks over the offsets. -/
theorem readForward_pageAt
    (hdistinct : UniqueIds items) {size offset : ℕ} (hsize : 0 < size) :
    readForward (pageAt items size offset) =
      { items := (items.drop offset).take size
        next :=
          if offset + size < items.length then
            some ((idAt items (offset + size - 1)).getD "")
          else none } := by
  unfold readForward pageAt ListResponse.fromItems
  by_cases hmore : offset + size < items.length
  · obtain ⟨id, hid, -⟩ := hdistinct.idAt_eq (by omega : offset + size - 1 < items.length)
    have hlast : ((items.drop offset).take size).getLast?.bind HasId.idOf = some id := by
      rw [List.getLast?_eq_getElem?, List.length_take, List.length_drop,
        List.getElem?_take_of_lt (by omega), List.getElem?_drop, ← hid, idAt]
      congr 2
      omega
    simp [hmore, hlast, hid]
  · simp [hmore]

theorem forward_eq_serve
    (hdistinct : UniqueIds items) :
    (fun (_ : ℕ) cursor =>
      (paginateById items limit cursor none maxLimit).toOption.map readForward) =
      serve (idCodec items) items (pageSizeOf limit maxLimit) := by
  have hsize := pageSizeOf_pos limit maxLimit
  funext request cursor
  unfold serve idCodec
  cases cursor with
  | none => exact congrArg some (readForward_pageAt hdistinct hsize)
  | some id =>
      by_cases hempty : id = ""
      · subst hempty
        exact congrArg some (readForward_pageAt hdistinct hsize)
      · rw [paginateById_after_eq hempty]
        simp only [hempty, if_false]
        cases indexAfter items id with
        | error error => rfl
        | ok offset => exact congrArg some (readForward_pageAt hdistinct hsize)

theorem idCodec_accepts
    (hdistinct : UniqueIds items) {offset request : ℕ} (hpos : 0 < offset)
    (hoffset : offset < items.length) (hne : idAt items (offset - 1) ≠ some "") :
    (idCodec items).accepts request offset := by
  obtain ⟨id, hid, hindex⟩ := hdistinct.idAt_eq (by omega : offset - 1 < items.length)
  have hid' : id ≠ "" := by
    rintro rfl
    exact hne hid
  have hback : offset - 1 + 1 = offset := by omega
  unfold Codec.accepts idCodec
  simp only [hid, Option.getD_some, hid', if_false, hindex hid', hback]
  rfl

/-- A client that goes on after the last item of every page sees these items. -/
def WalksForward (items : List Item) (limit : Option ℤ) (maxLimit : ℤ) : Prop :=
  ∃ patience responses,
    visited
      (fun (_ : ℕ) cursor => (paginateById items limit cursor none maxLimit).toOption)
      (fun response => (readForward response).next) patience 0 none = some responses ∧
    responses.flatMap ListResponse.data = items

theorem walksForward_iff
    (hdistinct : UniqueIds items) :
    WalksForward items limit maxLimit ↔
      ∀ page, (page + 1) * pageSizeOf limit maxLimit < items.length →
        idAt items ((page + 1) * pageSizeOf limit maxLimit - 1) ≠ some "" := by
  set size := pageSizeOf limit maxLimit with hdef
  have hsize : 0 < size := pageSizeOf_pos limit maxLimit
  have hpos : ∀ page, 0 < (page + 1) * size := fun page =>
    Nat.mul_pos page.succ_pos hsize
  have hwalk : WalksForward items limit maxLimit ↔
      Collects (serve (idCodec items) items size) items := by
    unfold WalksForward Collects
    rw [hdef, ← forward_eq_serve hdistinct]
    simp only [follow_map, Option.map_eq_some_iff]
    rfl
  rw [hwalk]
  constructor
  · rintro ⟨patience, hfollow⟩
    by_contra hempty
    push Not at hempty
    classical
    have hmin := fun page (hpage : page < Nat.find hempty) => Nat.find_min hempty hpage
    obtain ⟨hmore, hid⟩ := Nat.find_spec hempty
    have haccepts : ∀ request, ∀ page < Nat.find hempty,
        (idCodec items).accepts request ((page + 1) * size) := by
      intro request page hpage
      have hle : (page + 1) * size ≤ (Nat.find hempty + 1) * size :=
        Nat.mul_le_mul_right size (by omega)
      have hless : (page + 1) * size < items.length := by omega
      exact idCodec_accepts hdistinct (hpos page) hless fun hsame =>
        hmin page hpage ⟨hless, hsame⟩
    have hrestart : ∀ request,
        (idCodec items).decode (request + 1)
          (some ((idCodec items).encode request ((Nat.find hempty + 1) * size))) =
          some 0 := by
      intro request
      unfold idCodec
      simp [hid]
    rw [follow_restarts rfl hmore haccepts hrestart] at hfollow
    cases hfollow
  · intro hnamed
    have haccepts : ∀ step, 0 + (step + 1) * size < items.length →
        (idCodec items).accepts (0 + step) (0 + (step + 1) * size) := by
      intro step hstep
      simp only [Nat.zero_add] at hstep ⊢
      exact idCodec_accepts hdistinct (hpos step) hstep (hnamed step hstep)
    exact exists_follow_eq_some hsize rfl haccepts

end

/-! ## Walks back -/

/-- What a client reads that goes on before the first item. -/
def readBackward (response : ListResponse Item) : Option String :=
  if response.hasMore then response.firstId else none

/-- A client that holds the last item, and goes on before the first item of every
page, sees the others. -/
def WalksBackward (items : List Item) (limit : Option ℤ) (maxLimit : ℤ) : Prop :=
  ∀ earlier last, items = earlier ++ [last] →
    ∃ patience responses,
      visited
        (fun (_ : ℕ) cursor => (paginateById items limit none cursor maxLimit).toOption)
        readBackward patience 0 (HasId.idOf last) = some responses ∧
      responses.reverse.flatMap ListResponse.data = earlier

section

variable {items : List Item} {limit : Option ℤ} {maxLimit : ℤ}

/-- A page before an item starts within the list. -/
theorem paginateById_before_offset
    {cursor : Option String} {response : ListResponse Item} (hitems : 0 < items.length)
    (hpage : (paginateById items limit none cursor maxLimit).toOption = some response) :
    ∃ offset < items.length,
      response = pageAt items (pageSizeOf limit maxLimit) offset := by
  cases cursor with
  | none => exact ⟨0, hitems, (Option.some.inj hpage).symm⟩
  | some id =>
      by_cases hempty : id = ""
      · subst hempty
        exact ⟨0, hitems, (Option.some.inj hpage).symm⟩
      · rw [paginateById_before_eq hempty] at hpage
        cases hindex : indexOf items id with
        | error error =>
            rw [hindex] at hpage
            cases hpage
        | ok index =>
            rw [hindex] at hpage
            have hlt := indexOf_lt hindex
            exact ⟨index - pageSizeOf limit maxLimit, by omega,
              (Option.some.inj hpage).symm⟩

/-- The page without a cursor reaches the end of the list. -/
theorem readBackward_none
    (hdistinct : UniqueIds items) {size offset : ℕ} (hsize : 0 < size)
    (hoffset : offset < items.length)
    (hend : readBackward (pageAt items size offset) = none) :
    items.length ≤ offset + size := by
  by_contra hmore
  obtain ⟨id, hid, -⟩ := hdistinct.idAt_eq hoffset
  have hfirst : ((items.drop offset).take size).head?.bind HasId.idOf = some id := by
    rw [List.head?_take, if_neg hsize.ne', List.head?_drop]
    exact hid
  unfold readBackward pageAt ListResponse.fromItems at hend
  simp [hfirst, Nat.not_le.mp hmore] at hend

theorem walksBackward_iff
    (hdistinct : UniqueIds items) :
    WalksBackward items limit maxLimit ↔ items = [] := by
  constructor
  · intro hwalk
    rcases List.eq_nil_or_concat items with hnil | ⟨earlier, last, hitems⟩
    · exact hnil
    rw [List.concat_eq_append] at hitems
    obtain ⟨patience, responses, hvisited, hseen⟩ := hwalk earlier last hitems
    obtain ⟨hasked, -, answer, hanswer, hend⟩ := visited_spec hvisited
    obtain ⟨request, cursor, hask⟩ := hasked answer hanswer
    have hlength : 0 < items.length := by simp [hitems]
    obtain ⟨offset, hoffset, rfl⟩ := paginateById_before_offset hlength hask
    have hreach :=
      readBackward_none hdistinct (pageSizeOf_pos limit maxLimit) hoffset hend
    have hlast : last ∈ (pageAt items (pageSizeOf limit maxLimit) offset).data := by
      have hdrop : (items.drop offset).take (pageSizeOf limit maxLimit) =
          items.drop offset := List.take_of_length_le (by rw [List.length_drop]; omega)
      have hle : offset ≤ earlier.length := by
        rw [hitems, List.length_append, List.length_singleton] at hoffset
        omega
      change last ∈ (items.drop offset).take (pageSizeOf limit maxLimit)
      rw [hdrop, hitems, List.drop_append_of_le_length hle]
      exact List.mem_append_right _ List.mem_cons_self
    have hmem : last ∈ earlier := by
      rw [← hseen]
      exact List.mem_flatMap.mpr ⟨_, List.mem_reverse.mpr hanswer, hlast⟩
    have hnodup := hdistinct.nodup.of_map
    rw [hitems] at hnodup
    exact absurd rfl ((List.nodup_append.mp hnodup).2.2 last hmem last List.mem_cons_self)
  · rintro rfl earlier last hitems
    simp at hitems

end

/-- The page behind an item is right, and so is a walk forward, as long as no empty
id is used as a cursor.  The page in front of an item is right where the list has
more than a page of items there, and a walk back never is. -/
theorem paginateById_pages_iff
    {items : List Item} (hdistinct : UniqueIds items) (limit : Option ℤ)
    (maxLimit : ℤ) :
    (∀ before item after id, items = before ++ item :: after →
      HasId.idOf item = some id →
      (Shows (paginateById items limit (some id) none maxLimit)
          (after.take (pageSizeOf limit maxLimit))
          (pageSizeOf limit maxLimit < after.length) ↔ id ≠ "") ∧
      (Shows (paginateById items limit none (some id) maxLimit)
          (before.rtake (pageSizeOf limit maxLimit))
          (pageSizeOf limit maxLimit < before.length) ↔
        id ≠ "" ∧ pageSizeOf limit maxLimit < before.length)) ∧
    (WalksForward items limit maxLimit ↔
      ∀ page, (page + 1) * pageSizeOf limit maxLimit < items.length →
        idAt items ((page + 1) * pageSizeOf limit maxLimit - 1) ≠ some "") ∧
    (WalksBackward items limit maxLimit ↔ items = []) := by
  refine ⟨?_, walksForward_iff hdistinct, walksBackward_iff hdistinct⟩
  intro before item after id hitems hid
  have hsize := pageSizeOf_pos limit maxLimit
  have hnodup : (before ++ item :: after).Nodup := hitems ▸ hdistinct.nodup.of_map
  by_cases hempty : id = ""
  · subst hempty
    rw [paginateById_after_empty, paginateById_before_empty, hitems]
    simp [not_shows_first_after hnodup hsize, not_shows_first_before hnodup hsize]
  · rw [paginateById_after hdistinct hitems hid hempty,
      paginateById_before hdistinct hitems hid hempty, hitems]
    refine ⟨⟨fun _ => hempty, fun _ => shows_pageAt_after⟩, ?_, ?_⟩
    · intro hshows
      refine ⟨hempty, ?_⟩
      by_contra hfew
      rw [Nat.sub_eq_zero_of_le (Nat.not_lt.mp hfew)] at hshows
      exact not_shows_first_before hnodup hsize hshows
    · rintro ⟨-, hmany⟩
      exact shows_pageAt_before hmany

theorem uniqueIds_sampleItems : UniqueIds sampleItems where
  named := by
    intro item hitem
    simp only [sampleItems, List.mem_cons, List.not_mem_nil, or_false] at hitem
    rcases hitem with rfl | rfl | rfl
    · exact ⟨"a", rfl⟩
    · exact ⟨"b", rfl⟩
    · exact ⟨"c", rfl⟩
  nodup := by decide

theorem sample_paginateById_pages_iff :
    Shows (paginateById sampleItems (some 1) none (some "c"))
        [[("id", .str "b")]] True ∧
      WalksForward sampleItems (some 2) MAX_LIMIT ∧
      ¬ WalksBackward sampleItems (some 2) MAX_LIMIT := by
  obtain ⟨haround, -, -⟩ :=
    paginateById_pages_iff uniqueIds_sampleItems (some 1) MAX_LIMIT
  obtain ⟨-, hforward, hbackward⟩ :=
    paginateById_pages_iff uniqueIds_sampleItems (some 2) MAX_LIMIT
  refine ⟨?_, hforward.mpr ?_, fun hwalk => ?_⟩
  · have hpage := (haround [[("id", .str "a")], [("id", .str "b")]] [("id", .str "c")] []
      "c" rfl rfl).2.mpr ⟨by decide, by decide⟩
    obtain ⟨response, hresponse, hdata, hmore⟩ := hpage
    exact ⟨response, hresponse, hdata, hmore.trans (by decide)⟩
  · intro page hpage
    have hfirst : page = 0 := by
      have hlength : (page + 1) * 2 < 3 := hpage
      omega
    subst hfirst
    decide
  · cases hbackward.mp hwalk

/-- The page in front of the second item holds that item. -/
theorem before_page_holds_cursor :
    UniqueIds sampleItems ∧
      itemId [("id", .str "b")] = some "b" ∧
      (paginateById sampleItems (some 2) none (some "b")).toOption.map
          ListResponse.data = some [[("id", .str "a")], [("id", .str "b")]] ∧
      ¬ Shows (paginateById sampleItems (some 2) none (some "b"))
          ([[("id", .str "a")]] : List Dict) False := by
  refine ⟨uniqueIds_sampleItems, rfl, by decide, ?_⟩
  rintro ⟨response, hresponse, hdata, -⟩
  have hlength := congrArg List.length hdata
  obtain rfl := Except.ok.inj hresponse
  revert hlength
  decide

end ManagedAgents
