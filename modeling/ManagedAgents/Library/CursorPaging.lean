import Mathlib.Data.List.Basic
import Mathlib.Tactic

/-!
# Reading a growing log through a cursor

A reader keeps a cursor and fetches pages of the entries after it.  Of each
page it keeps the entries that belong to it and moves its cursor to the last
of them.  On a log in increasing order of keys the kept entries are those
between the start and the cursor, and the cursor moves exactly when the page
holds an entry of the reader.
-/

namespace CursorPaging

variable {Entry : Type*}

/-- The entries stand in increasing order of their keys. -/
def Ordered (key : Entry → ℤ) (log : List Entry) : Prop :=
  log.Pairwise fun left right => key left < key right

def page (key : Entry → ℤ) (log : List Entry) (cursor : ℤ) (limit : ℕ) :
    List Entry :=
  (log.filter fun entry => cursor < key entry).take limit

/-- The new cursor and the entries which the reader keeps. -/
def scan (key : Entry → ℤ) (belongs : Entry → Bool) :
    ℤ → List Entry → ℤ × List Entry
  | cursor, [] => (cursor, [])
  | cursor, entry :: rest =>
      if belongs entry then
        let scanned := scan key belongs (key entry) rest
        (scanned.1, entry :: scanned.2)
      else scan key belongs cursor rest

/-- The reader's entries after `low` and up to `high`. -/
def window (key : Entry → ℤ) (belongs : Entry → Bool) (log : List Entry)
    (low high : ℤ) : List Entry :=
  log.filter fun entry => low < key entry ∧ key entry ≤ high ∧ belongs entry

section

variable {key : Entry → ℤ} {belongs : Entry → Bool}

/-! ## One page -/

theorem scan_kept (cursor : ℤ) (entries : List Entry) :
    (scan key belongs cursor entries).2 = entries.filter belongs := by
  induction entries generalizing cursor with
  | nil => rfl
  | cons entry rest ih =>
      by_cases hbelongs : belongs entry = true
      · simp [scan, hbelongs, ih]
      · simp [scan, hbelongs, ih]

/-- The cursor stays, or it stands at an entry of the reader. -/
theorem scan_cursor_cases (cursor : ℤ) (entries : List Entry) :
    (scan key belongs cursor entries).1 = cursor ∨
      ∃ entry ∈ entries, key entry = (scan key belongs cursor entries).1 := by
  induction entries generalizing cursor with
  | nil => exact Or.inl rfl
  | cons entry rest ih =>
      by_cases hbelongs : belongs entry = true
      · right
        simp only [scan, hbelongs, if_true]
        rcases ih (key entry) with hsame | ⟨other, hother, hkey⟩
        · exact ⟨entry, List.mem_cons_self, hsame.symm⟩
        · exact ⟨other, List.mem_cons_of_mem _ hother, hkey⟩
      · simp only [scan, hbelongs, if_false, Bool.false_eq_true]
        rcases ih cursor with hsame | ⟨other, hother, hkey⟩
        · exact Or.inl hsame
        · exact Or.inr ⟨other, List.mem_cons_of_mem _ hother, hkey⟩

theorem le_scan_cursor
    {cursor : ℤ} {entries : List Entry}
    (hafter : ∀ entry ∈ entries, cursor < key entry) :
    cursor ≤ (scan key belongs cursor entries).1 := by
  rcases @scan_cursor_cases _ key belongs cursor entries with
    hsame | ⟨entry, hentry, hkey⟩
  · exact hsame.ge
  · rw [← hkey]
    exact (hafter entry hentry).le

theorem key_le_scan_cursor
    {cursor : ℤ} {entries : List Entry} (hordered : Ordered key entries)
    {entry : Entry} (hentry : entry ∈ entries) (hbelongs : belongs entry = true) :
    key entry ≤ (scan key belongs cursor entries).1 := by
  induction entries generalizing cursor with
  | nil => cases hentry
  | cons first rest ih =>
      obtain ⟨hfirst, hrest⟩ := List.pairwise_cons.mp hordered
      rcases List.mem_cons.mp hentry with rfl | hentry
      · simp only [scan, hbelongs, if_true]
        exact le_scan_cursor hfirst
      · by_cases hkept : belongs first = true
        · simp only [scan, hkept, if_true]
          exact ih hrest hentry
        · simp only [scan, hkept, if_false, Bool.false_eq_true]
          exact ih hrest hentry

theorem scan_cursor_lt_iff
    {cursor : ℤ} {entries : List Entry} (hordered : Ordered key entries)
    (hafter : ∀ entry ∈ entries, cursor < key entry) :
    cursor < (scan key belongs cursor entries).1 ↔
      ∃ entry ∈ entries, belongs entry = true := by
  constructor
  · intro hlt
    by_contra hnone
    have hkept : entries.filter belongs = [] := by
      apply List.filter_eq_nil_iff.mpr
      intro entry hentry hbelongs
      exact hnone ⟨entry, hentry, hbelongs⟩
    have hsame : (scan key belongs cursor entries).1 = cursor := by
      clear hlt hordered hafter
      induction entries with
      | nil => rfl
      | cons first rest ih =>
          by_cases hfirst : belongs first = true
          · exact absurd ⟨first, List.mem_cons_self, hfirst⟩ hnone
          · have hrest : ¬ ∃ entry ∈ rest, belongs entry = true := by
              rintro ⟨entry, hentry, hbelongs⟩
              exact hnone ⟨entry, List.mem_cons_of_mem _ hentry, hbelongs⟩
            simp only [scan, hfirst, if_false, Bool.false_eq_true]
            apply ih hrest
            rwa [List.filter_cons_of_neg hfirst] at hkept
    omega
  · rintro ⟨entry, hentry, hbelongs⟩
    have hcursor := hafter entry hentry
    have hkey : key entry ≤ (scan key belongs cursor entries).1 :=
      key_le_scan_cursor hordered hentry hbelongs
    omega

/-! ## Pages of an ordered log -/

section

variable {log : List Entry} {cursor : ℤ} {limit : ℕ}

theorem page_after : ∀ entry ∈ page key log cursor limit, cursor < key entry := by
  intro entry hentry
  have hmem := List.mem_of_mem_take hentry
  simpa using (List.mem_filter.mp hmem).2

theorem page_mem {entry : Entry} (hentry : entry ∈ page key log cursor limit) :
    entry ∈ log :=
  (List.mem_filter.mp (List.mem_of_mem_take hentry)).1

theorem Ordered.page (hlog : Ordered key log) :
    Ordered key (page key log cursor limit) :=
  (hlog.filter _).sublist (List.take_sublist _ _)

/-- A page is empty only when nothing stands after the cursor. -/
theorem page_ne_nil
    {entry : Entry} (hentry : entry ∈ log) (hafter : cursor < key entry)
    (hlimit : 0 < limit) : page key log cursor limit ≠ [] := by
  intro hnil
  rcases List.take_eq_nil_iff.mp hnil with hzero | hnone
  · omega
  · have hmem : entry ∈ log.filter fun entry => cursor < key entry := by
      simp [hentry, hafter]
    rw [hnone] at hmem
    cases hmem

theorem window_cons_of_pos
    {first : Entry} {rest : List Entry} {low high : ℤ}
    (hfirst : low < key first ∧ key first ≤ high ∧ belongs first = true) :
    window key belongs (first :: rest) low high =
      first :: window key belongs rest low high :=
  List.filter_cons_of_pos (by simpa using hfirst)

theorem window_cons_of_neg
    {first : Entry} {rest : List Entry} {low high : ℤ}
    (hfirst : ¬ (low < key first ∧ key first ≤ high ∧ belongs first = true)) :
    window key belongs (first :: rest) low high =
      window key belongs rest low high :=
  List.filter_cons_of_neg (by simpa using hfirst)

theorem window_append
    (hlog : Ordered key log) {low middle high : ℤ} (hlow : low ≤ middle)
    (hhigh : middle ≤ high) :
    window key belongs log low middle ++ window key belongs log middle high =
      window key belongs log low high := by
  induction log with
  | nil => rfl
  | cons first rest ih =>
      obtain ⟨hfirst, hrest⟩ := List.pairwise_cons.mp hlog
      by_cases hmiddle : key first ≤ middle
      · have hskip :
            ¬ (middle < key first ∧ key first ≤ high ∧ belongs first = true) := by
          intro h
          omega
        have hrest := ih hrest
        by_cases hkept : low < key first ∧ belongs first = true
        · rw [window_cons_of_pos ⟨hkept.1, hmiddle, hkept.2⟩, window_cons_of_neg hskip,
            window_cons_of_pos ⟨hkept.1, hmiddle.trans hhigh, hkept.2⟩,
            List.cons_append, hrest]
        · have hleft : ¬ (low < key first ∧ key first ≤ middle ∧ belongs first = true) :=
            fun h => hkept ⟨h.1, h.2.2⟩
          have hboth : ¬ (low < key first ∧ key first ≤ high ∧ belongs first = true) :=
            fun h => hkept ⟨h.1, h.2.2⟩
          rw [window_cons_of_neg hleft, window_cons_of_neg hskip,
            window_cons_of_neg hboth, hrest]
      · have hnone : window key belongs (first :: rest) low middle = [] := by
          apply List.filter_eq_nil_iff.mpr
          intro entry hentry
          have hkey : middle < key entry := by
            rcases List.mem_cons.mp hentry with rfl | hentry
            · omega
            · have := hfirst entry hentry
              omega
          simp only [decide_eq_true_eq]
          omega
        rw [hnone, List.nil_append]
        apply List.filter_congr
        intro entry hentry
        have hkey : middle < key entry := by
          rcases List.mem_cons.mp hentry with rfl | hentry
          · omega
          · have := hfirst entry hentry
            omega
        have hlow : low < key entry := by omega
        simp [hkey, hlow]

/-- The reader's entries of a page are those up to its new cursor. -/
theorem window_scan (hlog : Ordered key log) :
    window key belongs log cursor
        (scan key belongs cursor (page key log cursor limit)).1 =
      (page key log cursor limit).filter belongs := by
  have hpage : Ordered key (page key log cursor limit) := hlog.page
  have hcursor := @scan_cursor_cases _ key belongs cursor
    (page key log cursor limit)
  have hkept : ∀ entry ∈ page key log cursor limit, belongs entry = true →
      key entry ≤ (scan key belongs cursor (page key log cursor limit)).1 :=
    fun entry hentry hbelongs => key_le_scan_cursor hpage hentry hbelongs
  generalize hhigh : (scan key belongs cursor (page key log cursor limit)).1 = high at *
  have hsplit : window key belongs log cursor high =
      (log.filter fun entry => cursor < key entry).filter
        fun entry => key entry ≤ high ∧ belongs entry := by
    unfold window
    rw [List.filter_filter]
    apply List.filter_congr
    intro entry _
    by_cases hentry : cursor < key entry <;> simp [hentry]
  have hordered : Ordered key (log.filter fun entry => cursor < key entry) :=
    hlog.filter _
  have hlater : ∀ entry ∈ log.filter (fun entry => cursor < key entry),
      cursor < key entry := by
    intro entry hentry
    simpa using (List.mem_filter.mp hentry).2
  rw [hsplit]
  unfold page at *
  generalize (log.filter fun entry => cursor < key entry) = later at *
  rw [← List.take_append_drop limit later] at hordered
  have hapart := (List.pairwise_append.mp hordered).2.2
  have hdropped : (later.drop limit).filter
      (fun entry => key entry ≤ high ∧ belongs entry) = [] := by
    apply List.filter_eq_nil_iff.mpr
    intro entry hentry
    have hhighLt : high < key entry := by
      rcases hcursor with hsame | ⟨last, hlast, hkey⟩
      · rw [hsame]
        exact hlater entry (List.mem_of_mem_drop hentry)
      · rw [← hkey]
        exact hapart last hlast entry hentry
    simp only [decide_eq_true_eq, not_and]
    intro hle
    omega
  have htaken : (later.take limit).filter
      (fun entry => key entry ≤ high ∧ belongs entry) =
        (later.take limit).filter belongs := by
    apply List.filter_congr
    intro entry hentry
    by_cases hbelongs : belongs entry = true
    · simp [hbelongs, hkept entry hentry hbelongs]
    · simp [hbelongs]
  calc
    (later.filter fun entry => key entry ≤ high ∧ belongs entry) =
        ((later.take limit).filter fun entry => key entry ≤ high ∧ belongs entry) ++
          (later.drop limit).filter fun entry => key entry ≤ high ∧ belongs entry := by
      rw [← List.filter_append, List.take_append_drop]
    _ = (later.take limit).filter belongs := by
      rw [hdropped, htaken, List.append_nil]

end

/-! ## Readers of a growing log -/

/-- What the reader has sent are its entries after `low` and up to its
cursor, which stands at the start or at an entry. -/
structure Caught (key : Entry → ℤ) (belongs : Entry → Bool) (log : List Entry)
    (low cursor : ℤ) (sent : List Entry) : Prop where
  sent_eq : sent = window key belongs log low cursor
  low_le : low ≤ cursor
  reached : cursor = low ∨ ∃ entry ∈ log, key entry = cursor

theorem Caught.start (log : List Entry) (low : ℤ) :
    Caught key belongs log low low [] where
  sent_eq := by
    symm
    apply List.filter_eq_nil_iff.mpr
    intro entry _
    simp only [decide_eq_true_eq]
    omega
  low_le := le_rfl
  reached := Or.inl rfl

variable {low cursor : ℤ} {sent : List Entry}

/-- Entries added to the log later stand after the cursor. -/
theorem Caught.grow
    {older newer : List Entry} (hcaught : Caught key belongs older low cursor sent)
    (hgrows : older <+: newer) (hnewer : Ordered key newer) :
    Caught key belongs newer low cursor sent := by
  obtain ⟨added, rfl⟩ := hgrows
  have hapart := (List.pairwise_append.mp hnewer).2.2
  have hnone : window key belongs added low cursor = [] := by
    apply List.filter_eq_nil_iff.mpr
    intro entry hentry
    simp only [decide_eq_true_eq]
    rintro ⟨hlow, hle, -⟩
    rcases hcaught.reached with hsame | ⟨last, hlast, hkey⟩
    · omega
    · have := hapart last hlast entry hentry
      omega
  constructor
  · rw [hcaught.sent_eq]
    unfold window at *
    rw [List.filter_append, hnone, List.append_nil]
  · exact hcaught.low_le
  · rcases hcaught.reached with hsame | ⟨last, hlast, hkey⟩
    · exact Or.inl hsame
    · exact Or.inr ⟨last, List.mem_append_left _ hlast, hkey⟩

theorem Caught.scan
    {log : List Entry} (hcaught : Caught key belongs log low cursor sent)
    (hlog : Ordered key log) (limit : ℕ) :
    Caught key belongs log low
      (scan key belongs cursor (page key log cursor limit)).1
      (sent ++ (scan key belongs cursor (page key log cursor limit)).2) := by
  have hle : cursor ≤ (CursorPaging.scan key belongs cursor
      (page key log cursor limit)).1 := le_scan_cursor page_after
  constructor
  · rw [scan_kept, ← window_scan hlog, hcaught.sent_eq]
    exact window_append hlog hcaught.low_le hle
  · exact hcaught.low_le.trans hle
  · rcases @scan_cursor_cases _ key belongs cursor
      (page key log cursor limit) with hsame | ⟨last, hlast, hkey⟩
    · rw [hsame]
      exact hcaught.reached
    · exact Or.inr ⟨last, page_mem hlast, hkey⟩

end

end CursorPaging
