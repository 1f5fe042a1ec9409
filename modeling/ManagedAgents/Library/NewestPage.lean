import Mathlib.Data.List.Sort
import Mathlib.Tactic

/-!
# Scanning the newest rows for the oldest match

A page holds the rows with the largest keys, largest first.  A scan reads the
page from its far end and stops at the first row that matches.  It finds the
oldest match of the page, which is the oldest match of all rows exactly when
fewer rows than the page holds are newer.
-/

namespace NewestPage

variable {Row Key : Type*} [LinearOrder Key]

def page (key : Row → Key) (rows : List Row) (limit : ℕ) : List Row :=
  (rows.insertionSort fun left right => key right ≤ key left).take limit

/-- The first match of the page, read from its far end. -/
def scan (key : Row → Key) (rows : List Row) (limit : ℕ) (matched : Row → Bool) :
    Option Row :=
  (page key rows limit).reverse.find? matched

/-- The row is a match and no match is older. -/
def IsOldest (key : Row → Key) (rows : List Row) (matched : Row → Bool)
    (row : Row) : Prop :=
  row ∈ rows ∧ matched row = true ∧
    ∀ other ∈ rows, matched other = true → key row ≤ key other

def newer (key : Row → Key) (rows : List Row) (row : Row) : List Row :=
  rows.filter fun other => key row < key other

/-- Different rows have different keys. -/
def Keyed (key : Row → Key) (rows : List Row) : Prop :=
  (rows.map key).Nodup

variable {key : Row → Key} {rows : List Row} {matched : Row → Bool} {row : Row}

/-- The page holds all rows if there are no more than it has room for. -/
theorem page_perm_of_length_le
    {limit : ℕ} (hlength : rows.length ≤ limit) : (page key rows limit).Perm rows := by
  unfold page
  rw [List.take_of_length_le (by rwa [List.length_insertionSort])]
  exact List.perm_insertionSort _ rows

theorem page_length (limit : ℕ) :
    (page key rows limit).length = min limit rows.length := by
  unfold page
  rw [List.length_take, List.length_insertionSort]

/-! ## Lists in descending order -/

def Descending (key : Row → Key) (rows : List Row) : Prop :=
  rows.Pairwise fun left right => key right < key left

theorem Keyed.descending (hkeyed : Keyed key rows) :
    Descending key (rows.insertionSort fun left right => key right ≤ key left) := by
  have hperm := List.perm_insertionSort (fun left right => key right ≤ key left) rows
  have hne := List.pairwise_map.mp ((hperm.map key).nodup_iff.mpr hkeyed)
  have htotal : Std.Total fun left right : Row => key right ≤ key left :=
    ⟨fun left right => le_total (key right) (key left)⟩
  have htrans : IsTrans Row fun left right => key right ≤ key left :=
    ⟨fun _ _ _ hfirst hsecond => hsecond.trans hfirst⟩
  have hsorted :=
    List.pairwise_insertionSort (fun left right : Row => key right ≤ key left) rows
  exact (hsorted.and hne).imp fun hboth => lt_of_le_of_ne hboth.1 (Ne.symm hboth.2)

/-- A row is among the first ones exactly when few rows are newer. -/
theorem Descending.mem_take_iff
    (hdescending : Descending key rows) (limit : ℕ) :
    row ∈ rows.take limit ↔ row ∈ rows ∧ (newer key rows row).length < limit := by
  induction rows generalizing limit with
  | nil => simp
  | cons first rest ih =>
      obtain ⟨hfirst, hrest⟩ := List.pairwise_cons.mp hdescending
      cases limit with
      | zero => simp
      | succ limit =>
          rw [List.take_succ_cons, List.mem_cons, List.mem_cons, ih hrest]
          by_cases hsame : row = first
          · subst hsame
            have hnone : newer key (row :: rest) row = [] := by
              apply List.filter_eq_nil_iff.mpr
              intro other hother
              rcases List.mem_cons.mp hother with rfl | hother
              · simp
              · simpa using (hfirst other hother).le
            simp [hnone]
          · have hcount : ∀ hrow : row ∈ rest,
                (newer key (first :: rest) row).length =
                  (newer key rest row).length + 1 := by
              intro hrow
              unfold newer
              rw [List.filter_cons_of_pos (by simpa using hfirst row hrow),
                List.length_cons]
            constructor
            · rintro (hfalse | ⟨hrow, hfew⟩)
              · exact absurd hfalse hsame
              · rw [hcount hrow]
                exact ⟨Or.inr hrow, Nat.succ_lt_succ hfew⟩
            · rintro ⟨hfalse | hrow, hfew⟩
              · exact absurd hfalse hsame
              · rw [hcount hrow] at hfew
                exact Or.inr ⟨hrow, Nat.lt_of_succ_lt_succ hfew⟩

theorem Descending.reverse_find?_eq_some_iff
    (hdescending : Descending key rows) :
    rows.reverse.find? matched = some row ↔ IsOldest key rows matched row := by
  induction rows with
  | nil => simp [IsOldest]
  | cons first rest ih =>
      obtain ⟨hfirst, hrest⟩ := List.pairwise_cons.mp hdescending
      rw [List.reverse_cons, List.find?_append, Option.or_eq_some_iff, ih hrest]
      constructor
      · rintro (⟨hrow, hmatched, holdest⟩ | ⟨hnone, hsome⟩)
        · refine ⟨List.mem_cons_of_mem _ hrow, hmatched, ?_⟩
          intro other hother hmatch
          rcases List.mem_cons.mp hother with rfl | hother
          · exact (hfirst row hrow).le
          · exact holdest other hother hmatch
        · have hrow : row = first := by
            simpa using List.mem_of_find?_eq_some hsome
          subst hrow
          refine ⟨List.mem_cons_self, List.find?_some hsome, ?_⟩
          intro other hother hmatch
          rcases List.mem_cons.mp hother with rfl | hother
          · exact le_rfl
          · rw [List.find?_eq_none] at hnone
            exact absurd hmatch (hnone other (List.mem_reverse.mpr hother))
      · rintro ⟨hrow, hmatched, holdest⟩
        rcases List.mem_cons.mp hrow with rfl | hrow
        · right
          constructor
          · apply List.find?_eq_none.mpr
            intro other hother hmatch
            have hother := List.mem_reverse.mp hother
            have hle := holdest other (List.mem_cons_of_mem _ hother) hmatch
            exact absurd (hfirst other hother) (not_lt.mpr hle)
          · simp [hmatched]
        · left
          refine ⟨hrow, hmatched, ?_⟩
          intro other hother hmatch
          exact holdest other (List.mem_cons_of_mem _ hother) hmatch

/-! ## Pages and scans -/

theorem mem_of_mem_page {limit : ℕ} (hrow : row ∈ page key rows limit) : row ∈ rows :=
  (List.perm_insertionSort _ rows).subset (List.mem_of_mem_take hrow)

theorem Keyed.mem_page_iff (hkeyed : Keyed key rows) (limit : ℕ) :
    row ∈ page key rows limit ↔
      row ∈ rows ∧ (newer key rows row).length < limit := by
  have hperm := List.perm_insertionSort (fun left right => key right ≤ key left) rows
  have hnewer : (newer key (rows.insertionSort fun left right => key right ≤ key left)
      row).length = (newer key rows row).length :=
    (hperm.filter _).length_eq
  rw [page, hkeyed.descending.mem_take_iff, hperm.mem_iff, hnewer]

theorem Keyed.page_descending (hkeyed : Keyed key rows) (limit : ℕ) :
    Descending key (page key rows limit) :=
  hkeyed.descending.sublist (List.take_sublist _ _)

/-- Rows taken away from all rows are taken away from the page, if it holds all. -/
theorem Keyed.page_filter
    (hkeyed : Keyed key rows) {limit : ℕ} (hlength : rows.length ≤ limit)
    (kept : Row → Bool) :
    page key (rows.filter kept) limit = (page key rows limit).filter kept := by
  have hshort : (rows.filter kept).length ≤ limit :=
    (List.length_filter_le kept rows).trans hlength
  have hfiltered : Keyed key (rows.filter kept) :=
    hkeyed.sublist (List.filter_sublist.map key)
  have hperm : (page key (rows.filter kept) limit).Perm
      ((page key rows limit).filter kept) :=
    (page_perm_of_length_le hshort).trans ((page_perm_of_length_le hlength).symm.filter _)
  refine List.Perm.eq_of_pairwise ?_ (hfiltered.page_descending limit)
    ((hkeyed.page_descending limit).sublist List.filter_sublist) hperm
  intro left right _ _ hless hgreater
  exact absurd hless (lt_asymm hgreater)

/-- The scan finds the oldest match of the page. -/
theorem Keyed.scan_eq_some_iff (hkeyed : Keyed key rows) (limit : ℕ) :
    scan key rows limit matched = some row ↔
      IsOldest key (page key rows limit) matched row := by
  exact (hkeyed.page_descending limit).reverse_find?_eq_some_iff

theorem scan_eq_none_iff {limit : ℕ} :
    scan key rows limit matched = none ↔
      ∀ row ∈ page key rows limit, matched row ≠ true := by
  simp [scan]

/-! ## Oldest rows -/

theorem exists_isOldest
    (key : Row → Key) (hrow : row ∈ rows) (hmatched : matched row = true) :
    ∃ oldest, IsOldest key rows matched oldest := by
  induction rows generalizing row with
  | nil => cases hrow
  | cons first rest ih =>
      by_cases hrest : ∃ other ∈ rest, matched other = true
      · obtain ⟨other, hother, hmatch⟩ := hrest
        obtain ⟨oldest, hold, hisMatched, hleast⟩ := ih hother hmatch
        by_cases hfirst : matched first = true ∧ key first ≤ key oldest
        · refine ⟨first, List.mem_cons_self, hfirst.1, ?_⟩
          intro candidate hcandidate hmatch
          rcases List.mem_cons.mp hcandidate with rfl | hcandidate
          · exact le_rfl
          · exact hfirst.2.trans (hleast candidate hcandidate hmatch)
        · refine ⟨oldest, List.mem_cons_of_mem _ hold, hisMatched, ?_⟩
          intro candidate hcandidate hmatch
          rcases List.mem_cons.mp hcandidate with rfl | hcandidate
          · exact (not_le.mp fun hle => hfirst ⟨hmatch, hle⟩).le
          · exact hleast candidate hcandidate hmatch
      · rcases List.mem_cons.mp hrow with rfl | hrow
        · refine ⟨row, List.mem_cons_self, hmatched, ?_⟩
          intro candidate hcandidate hmatch
          rcases List.mem_cons.mp hcandidate with rfl | hcandidate
          · exact le_rfl
          · exact absurd ⟨candidate, hcandidate, hmatch⟩ hrest
        · exact absurd ⟨row, hrow, hmatched⟩ hrest

theorem Keyed.isOldest_unique
    {other : Row} (hkeyed : Keyed key rows) (hrow : IsOldest key rows matched row)
    (hother : IsOldest key rows matched other) : row = other := by
  apply List.inj_on_of_nodup_map hkeyed hrow.1 hother.1
  exact le_antisymm (hrow.2.2 other hother.1 hother.2.1)
    (hother.2.2 row hrow.1 hrow.2.1)

/-! ## Pages of the children of a page -/

section

variable {Child ChildKey : Type*} [LinearOrder ChildKey] {childKey : Child → ChildKey}
  {children : Row → List Child}

/-- The newest children of the rows. -/
def pages (childKey : Child → ChildKey) (children : Row → List Child) (parents : List Row)
    (limit : ℕ) : List Child :=
  parents.flatMap fun parent => page childKey (children parent) limit

theorem pages_length_le (parents : List Row) (limit : ℕ) :
    (pages childKey children parents limit).length ≤
      (parents.flatMap children).length := by
  unfold pages
  induction parents with
  | nil => exact le_rfl
  | cons parent rest ih =>
      rw [List.flatMap_cons, List.flatMap_cons, List.length_append, List.length_append,
        page_length]
      omega

/-- No child is left out exactly when no row has too many. -/
theorem pages_length_eq_iff (parents : List Row) (limit : ℕ) :
    (pages childKey children parents limit).length = (parents.flatMap children).length ↔
      ∀ parent ∈ parents, (children parent).length ≤ limit := by
  induction parents with
  | nil => simp [pages]
  | cons parent rest ih =>
      have hrest := @pages_length_le _ _ _ _ childKey children rest limit
      unfold pages at hrest ih ⊢
      rw [List.flatMap_cons, List.flatMap_cons, List.length_append, List.length_append,
        page_length, List.forall_mem_cons, ← ih]
      omega

theorem pages_perm
    {parents : List Row} {limit : ℕ}
    (hshort : ∀ parent ∈ parents, (children parent).length ≤ limit) :
    (pages childKey children parents limit).Perm (parents.flatMap children) :=
  List.Perm.flatMap_left parents fun parent hparent =>
    page_perm_of_length_le (hshort parent hparent)

/-- The children on the pages of a page are all children exactly when no row has
too many and the rows which have children are on the page. -/
theorem Keyed.pages_length_eq_iff
    (hkeyed : Keyed key rows) (limit childLimit : ℕ) :
    (pages childKey children (page key rows limit) childLimit).length =
        (rows.flatMap children).length ↔
      ∀ parent ∈ rows, (children parent).length ≤ childLimit ∧
        (children parent ≠ [] → (newer key rows parent).length < limit) := by
  set sorted := rows.insertionSort fun left right => key right ≤ key left with hsorted
  have hperm : sorted.Perm rows := List.perm_insertionSort _ rows
  have hsplit : (rows.flatMap children).length =
      ((sorted.take limit).flatMap children).length +
        ((sorted.drop limit).flatMap children).length := by
    rw [← List.length_append, ← List.flatMap_append, List.take_append_drop]
    exact ((hperm.flatMap_right children).length_eq).symm
  have hnodup : sorted.Nodup := hperm.nodup_iff.mpr (List.Nodup.of_map key hkeyed)
  have hpage : page key rows limit = sorted.take limit := rfl
  have hle := @pages_length_le _ _ _ _ childKey children (sorted.take limit) childLimit
  have hiff := @NewestPage.pages_length_eq_iff _ _ _ _ childKey children
    (sorted.take limit) childLimit
  have hnewer : ∀ parent, parent ∈ sorted.take limit ↔
      parent ∈ rows ∧ (newer key rows parent).length < limit := by
    intro parent
    rw [← hpage]
    exact hkeyed.mem_page_iff limit
  rw [hpage]
  constructor
  · intro hsame parent hparent
    have htake := hiff.mp (by omega)
    have hdrop : (sorted.drop limit).flatMap children = [] := by
      apply List.eq_nil_of_length_eq_zero
      omega
    have hplace : parent ∈ sorted.take limit ∨ parent ∈ sorted.drop limit := by
      rw [← List.mem_append, List.take_append_drop]
      exact hperm.mem_iff.mpr hparent
    rcases hplace with hnew | hold
    · exact ⟨htake parent hnew, fun _ => ((hnewer parent).mp hnew).2⟩
    · have hnone : children parent = [] := List.flatMap_eq_nil_iff.mp hdrop parent hold
      exact ⟨by simp [hnone], fun hsome => absurd hnone hsome⟩
  · intro hall
    have htake : ∀ parent ∈ sorted.take limit, (children parent).length ≤ childLimit :=
      fun parent hparent => (hall parent ((hnewer parent).mp hparent).1).1
    have hdrop : (sorted.drop limit).flatMap children = [] := by
      apply List.flatMap_eq_nil_iff.mpr
      intro parent hold
      by_contra hsome
      have hparent := hperm.mem_iff.mp (List.mem_of_mem_drop hold)
      have hnew := (hnewer parent).mpr ⟨hparent, (hall parent hparent).2 hsome⟩
      exact List.disjoint_take_drop hnodup le_rfl hnew hold
    rw [hsplit, hdrop, hiff.mpr htake]
    rfl

/-- Then they are all children, in another order. -/
theorem Keyed.pages_perm
    (hkeyed : Keyed key rows) {limit childLimit : ℕ}
    (hsame : (pages childKey children (page key rows limit) childLimit).length =
      (rows.flatMap children).length) :
    (pages childKey children (page key rows limit) childLimit).Perm
      (rows.flatMap children) := by
  have hall := (hkeyed.pages_length_eq_iff limit childLimit).mp hsame
  have hsub : (pages childKey children (page key rows limit) childLimit).Subperm
      (rows.flatMap children) := by
    have hshort : ∀ parent ∈ page key rows limit, (children parent).length ≤ childLimit :=
      fun parent hparent => (hall parent (mem_of_mem_page hparent)).1
    have hsublist : ((page key rows limit).flatMap children).Sublist
        ((rows.insertionSort fun left right => key right ≤ key left).flatMap children) :=
      (List.take_sublist limit _).flatMap children
    exact (NewestPage.pages_perm hshort).subperm.trans (hsublist.subperm.trans
      ((List.perm_insertionSort _ rows).flatMap_right children).subperm)
  exact hsub.perm_of_length_le hsame.ge

end

end NewestPage
