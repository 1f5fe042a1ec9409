import Mathlib.Data.List.Basic
import Mathlib.Tactic

/-!
# Walking a list through page cursors

A server cuts a list into pages of one size and hands out a cursor for the
offset of the next page, which it may refuse later.  A client asks for one page
after the other until a page has no cursor.  It has collected the list then, and
it gets there exactly when no cursor that it needs is refused.
-/

namespace OffsetPages

variable {Cursor Item : Type*}

structure Page (Cursor Item : Type*) where
  items : List Item
  next : Option Cursor

/-- What a client has collected after the last page, unless it gives up after so
many requests or one of them fails. -/
def follow (serve : ℕ → Option Cursor → Option (Page Cursor Item)) :
    ℕ → ℕ → Option Cursor → Option (List Item)
  | 0, _, _ => none
  | patience + 1, request, cursor =>
      (serve request cursor).bind fun page =>
        match page.next with
        | none => some page.items
        | some next =>
            (follow serve patience (request + 1) (some next)).map (page.items ++ ·)

/-- The answers that the client saw on its way, up to the one without a cursor. -/
def visited {Answer : Type*} (ask : ℕ → Option Cursor → Option Answer)
    (next : Answer → Option Cursor) : ℕ → ℕ → Option Cursor → Option (List Answer)
  | 0, _, _ => none
  | patience + 1, request, cursor =>
      (ask request cursor).bind fun answer =>
        match next answer with
        | none => some [answer]
        | some cursor =>
            (visited ask next patience (request + 1) (some cursor)).map (answer :: ·)

section

variable {Answer : Type*} {ask : ℕ → Option Cursor → Option Answer}

/-- The collected items are those of the answers. -/
theorem follow_map
    (read : Answer → Page Cursor Item) (patience request : ℕ) (cursor : Option Cursor) :
    follow (fun request cursor => (ask request cursor).map read) patience request cursor =
      (visited ask (fun answer => (read answer).next) patience request cursor).map
        fun answers => answers.flatMap fun answer => (read answer).items := by
  induction patience generalizing request cursor with
  | zero => rfl
  | succ patience ih =>
      unfold follow visited
      cases ask request cursor with
      | none => rfl
      | some answer =>
          simp only [Option.map_some, Option.bind_some]
          cases (read answer).next with
          | none => simp
          | some next =>
              simp only [ih, Option.map_map]
              congr 1

/-- The client asked for all of its answers, and only the last has no cursor. -/
theorem visited_spec
    {next : Answer → Option Cursor} {patience request : ℕ} {cursor : Option Cursor}
    {answers : List Answer}
    (hvisited : visited ask next patience request cursor = some answers) :
    (∀ answer ∈ answers, ∃ request cursor, ask request cursor = some answer) ∧
      (∀ answer ∈ answers.dropLast, next answer ≠ none) ∧
      ∃ answer ∈ answers, next answer = none := by
  induction patience generalizing request cursor answers with
  | zero => cases hvisited
  | succ patience ih =>
      unfold visited at hvisited
      obtain ⟨answer, hask, hrest⟩ := Option.bind_eq_some_iff.mp hvisited
      cases hnext : next answer with
      | none =>
          rw [hnext] at hrest
          obtain rfl := Option.some.inj hrest
          exact ⟨by simpa using ⟨request, cursor, hask⟩, by simp,
            answer, List.mem_cons_self, hnext⟩
      | some following =>
          rw [hnext] at hrest
          obtain ⟨later, hlater, rfl⟩ := Option.map_eq_some_iff.mp hrest
          obtain ⟨hasked, hcursors, last, hlast, hend⟩ := ih hlater
          refine ⟨?_, ?_, last, List.mem_cons_of_mem _ hlast, hend⟩
          · intro other hother
            rcases List.mem_cons.mp hother with rfl | hother
            · exact ⟨request, cursor, hask⟩
            · exact hasked other hother
          · intro other hother
            cases later with
            | nil => simp at hother
            | cons first rest =>
                rw [List.dropLast_cons_cons] at hother
                rcases List.mem_cons.mp hother with rfl | hother
                · simp [hnext]
                · exact hcursors other hother

end

/-- A patient client ends up with these items. -/
def Collects (serve : ℕ → Option Cursor → Option (Page Cursor Item))
    (items : List Item) : Prop :=
  ∃ patience, follow serve patience 0 none = some items

/-- The cursors of a server, which may depend on the request. -/
structure Codec (Cursor : Type*) where
  encode : ℕ → ℕ → Cursor
  decode : ℕ → Option Cursor → Option ℕ

/-- The cursor that was handed out with the page before is taken back. -/
def Codec.accepts (codec : Codec Cursor) (request offset : ℕ) : Prop :=
  codec.decode (request + 1) (some (codec.encode request offset)) = some offset

/-- A cursor is taken back for what it was handed out for, or refused. -/
structure Codec.Faithful (codec : Codec Cursor) : Prop where
  first : ∀ request, codec.decode request none = some 0
  later : ∀ request offset, codec.accepts request offset ∨
    codec.decode (request + 1) (some (codec.encode request offset)) = none

def serve (codec : Codec Cursor) (items : List Item) (size request : ℕ)
    (cursor : Option Cursor) : Option (Page Cursor Item) :=
  (codec.decode request cursor).map fun offset =>
    { items := (items.drop offset).take size
      next :=
        if offset + size < items.length then some (codec.encode request (offset + size))
        else none }

section

variable {codec : Codec Cursor} {items collected : List Item} {size : ℕ}

/-- The last page. -/
theorem follow_last
    {patience request offset : ℕ} {cursor : Option Cursor}
    (hdecode : codec.decode request cursor = some offset)
    (hlast : items.length ≤ offset + size) :
    follow (serve codec items size) (patience + 1) request cursor =
      some (items.drop offset) := by
  have htake : (items.drop offset).take size = items.drop offset := by
    apply List.take_of_length_le
    rw [List.length_drop]
    omega
  simp [follow, serve, hdecode, Nat.not_lt.mpr hlast, htake]

/-- A page with a cursor. -/
theorem follow_more
    {patience request offset : ℕ} {cursor : Option Cursor}
    (hdecode : codec.decode request cursor = some offset)
    (hmore : offset + size < items.length) :
    follow (serve codec items size) (patience + 1) request cursor =
      (follow (serve codec items size) patience (request + 1)
        (some (codec.encode request (offset + size)))).map
          ((items.drop offset).take size ++ ·) := by
  simp [follow, serve, hdecode, hmore]

theorem follow_refused
    {patience request : ℕ} {cursor : Option Cursor}
    (hdecode : codec.decode request cursor = none) :
    follow (serve codec items size) patience request cursor = none := by
  cases patience with
  | zero => rfl
  | succ patience => simp [follow, serve, hdecode]

/-- A client that gets to the end has the items from its offset on, and no
cursor on its way was refused. -/
theorem Codec.Faithful.follow_eq_some
    (hfaithful : codec.Faithful) {patience request offset : ℕ} {cursor : Option Cursor}
    (hdecode : codec.decode request cursor = some offset)
    (hfollow : follow (serve codec items size) patience request cursor =
      some collected) :
    collected = items.drop offset ∧
      ∀ step, offset + (step + 1) * size < items.length →
        codec.accepts (request + step) (offset + (step + 1) * size) := by
  induction patience generalizing request offset cursor collected with
  | zero => cases hfollow
  | succ patience ih =>
      rcases Nat.lt_or_ge (offset + size) items.length with hmore | hlast
      · rw [follow_more hdecode hmore] at hfollow
        obtain ⟨rest, hrest, rfl⟩ := Option.map_eq_some_iff.mp hfollow
        rcases hfaithful.later request (offset + size) with haccepts | hrefused
        · obtain ⟨rfl, hsteps⟩ := ih haccepts hrest
          constructor
          · rw [← List.drop_drop]
            exact List.take_append_drop size (items.drop offset)
          · intro step hstep
            cases step with
            | zero => simpa using haccepts
            | succ step =>
                have hoffset : offset + size + (step + 1) * size =
                    offset + (step + 1 + 1) * size := by ring
                have hrequest : request + 1 + step = request + (step + 1) := by ring
                rw [← hoffset, ← hrequest]
                exact hsteps step (by omega)
        · rw [follow_refused hrefused] at hrest
          cases hrest
      · rw [follow_last hdecode hlast] at hfollow
        refine ⟨(Option.some.inj hfollow).symm, fun step hstep => ?_⟩
        have hsize : size ≤ (step + 1) * size := Nat.le_mul_of_pos_left size step.succ_pos
        omega

/-- If no cursor on the way is refused the client gets to the end. -/
theorem exists_follow_eq_some
    (hsize : 0 < size) {request offset : ℕ} {cursor : Option Cursor}
    (hdecode : codec.decode request cursor = some offset)
    (haccepts : ∀ step, offset + (step + 1) * size < items.length →
      codec.accepts (request + step) (offset + (step + 1) * size)) :
    ∃ patience, follow (serve codec items size) patience request cursor =
      some (items.drop offset) := by
  induction hremaining : items.length - offset using Nat.strong_induction_on
    generalizing request offset cursor with
  | _ remaining ih =>
      rcases Nat.lt_or_ge (offset + size) items.length with hmore | hlast
      · have hnext : codec.accepts request (offset + size) := by
          simpa using haccepts 0 (by omega)
        obtain ⟨patience, hpatience⟩ :=
          ih (items.length - (offset + size)) (by omega) hnext (by
            intro step hstep
            have hoffset : offset + size + (step + 1) * size =
                offset + (step + 1 + 1) * size := by ring
            have hrequest : request + 1 + step = request + (step + 1) := by ring
            rw [hoffset] at hstep
            rw [hoffset, hrequest]
            exact haccepts (step + 1) hstep) rfl
        refine ⟨patience + 1, ?_⟩
        rw [follow_more hdecode hmore, hpatience, Option.map_some, ← List.drop_drop,
          List.take_append_drop]
      · exact ⟨1, follow_last hdecode hlast⟩

/-- A cursor that is taken for the start of the list sends the client round and
round. -/
theorem follow_restarts
    {last : ℕ} (hfirst : codec.decode 0 none = some 0)
    (hlast : (last + 1) * size < items.length)
    (haccepts : ∀ request, ∀ step < last, codec.accepts request ((step + 1) * size))
    (hrestart : ∀ request,
      codec.decode (request + 1) (some (codec.encode request ((last + 1) * size))) =
        some 0)
    (patience : ℕ) :
    follow (serve codec items size) patience 0 none = none := by
  have hwalk : ∀ patience request step, ∀ cursor, step ≤ last →
      codec.decode request cursor = some (step * size) →
      follow (serve codec items size) patience request cursor = none := by
    intro patience
    induction patience with
    | zero => intros; rfl
    | succ patience ih =>
        intro request step cursor hstep hdecode
        have hnext : step * size + size = (step + 1) * size := by ring
        have hmore : step * size + size < items.length := by
          have hle := Nat.mul_le_mul_right size (Nat.add_le_add_right hstep 1)
          omega
        rw [follow_more hdecode hmore, hnext, Option.map_eq_none_iff]
        rcases Nat.lt_or_eq_of_le hstep with hearlier | rfl
        · exact ih (request + 1) (step + 1) _ hearlier (haccepts request step hearlier)
        · apply ih (request + 1) 0 _ (Nat.zero_le _)
          rw [Nat.zero_mul]
          exact hrestart request
  exact hwalk patience 0 0 none (Nat.zero_le _) (by rw [Nat.zero_mul]; exact hfirst)

/-- A client collects the list, if it does not run into a refused cursor. -/
theorem Codec.Faithful.collects_iff
    (hfaithful : codec.Faithful) (hsize : 0 < size) :
    Collects (serve codec items size) collected ↔
      collected = items ∧
        ∀ step, (step + 1) * size < items.length →
          codec.accepts step ((step + 1) * size) := by
  have hfirst := hfaithful.first 0
  constructor
  · rintro ⟨patience, hfollow⟩
    obtain ⟨hitems, hsteps⟩ := hfaithful.follow_eq_some hfirst hfollow
    refine ⟨hitems, fun step hstep => ?_⟩
    simpa using hsteps step (by simpa using hstep)
  · rintro ⟨rfl, hsteps⟩
    have haccepts : ∀ step, 0 + (step + 1) * size < collected.length →
        codec.accepts (0 + step) (0 + (step + 1) * size) := by
      simpa using hsteps
    exact exists_follow_eq_some hsize hfirst haccepts

end

end OffsetPages
