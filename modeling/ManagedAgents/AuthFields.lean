import ManagedAgents.AuthChecks
import ManagedAgents.SecretRoundTrips

/-!
# Fields of encrypted auth objects

What encrypting, decrypting and purging do to each field of an auth object.
-/

namespace ManagedAgents

open Fallible

/-! ## Encrypting -/

/-- What a walk does to the value under a key. -/
def walkField (transform : String → Encrypting String) (key : String) (child : Json) :
    Encrypting Json :=
  match secretText key child with
  | some value => Json.str <$> transform value
  | none => walk transform child

section

variable {transform : String → Encrypting String} {draw next : ℕ}

theorem walkField_null (key : String) (draw : ℕ) :
    walkField transform key .null draw = .ok (.null, draw) :=
  @walk_leaf transform .null trivial draw

theorem walkFields_cons
    (key : String) (child : Json) (rest : Dict) :
    walkFields transform ((key, child) :: rest) = (do
      let child ← walkField transform key child
      return (key, child) :: (← walkFields transform rest)) := by
  rw [walkFields]
  unfold walkField
  cases secretText key child <;> rfl

theorem walkFields_get
    {fields walked : Dict}
    (hwalked : walkFields transform fields draw = .ok (walked, next)) (key : String) :
    ∃ first last, walkField transform key (Dict.get fields key) first =
      .ok (Dict.get walked key, last) := by
  induction fields generalizing walked draw with
  | nil =>
      rw [walkFields] at hwalked
      cases hwalked
      exact ⟨0, 0, walkField_null key 0⟩
  | cons field rest ih =>
      obtain ⟨name, child⟩ := field
      rw [walkFields_cons] at hwalked
      obtain ⟨value, middle, hvalue, hwalked⟩ := encrypting_bind_eq_ok.mp hwalked
      obtain ⟨others, last, hothers, hwalked⟩ := encrypting_bind_eq_ok.mp hwalked
      cases hwalked
      by_cases hname : name = key
      · subst hname
        refine ⟨draw, middle, ?_⟩
        simpa [Dict.get] using hvalue
      · simpa [Dict.get, hname] using ih hothers

theorem get_leaf
    {value : Json} (hleaf : value.IsLeaf) (key : String) : value.get key = .null := by
  cases value with
  | dict fields => cases hleaf
  | list | null | bool | int | float | str => rfl

theorem walk_field
    {value walked : Json} (hwalked : walk transform value draw = .ok (walked, next))
    (key : String) :
    ∃ first last, walkField transform key (value.get key) first =
      .ok (walked.get key, last) := by
  by_cases hleaf : value.IsLeaf
  · rw [walk_leaf value hleaf] at hwalked
    cases hwalked
    rw [get_leaf hleaf]
    exact ⟨0, 0, walkField_null key 0⟩
  · cases value with
    | dict fields =>
        rw [walk] at hwalked
        obtain ⟨others, middle, hothers, hwalked⟩ := encrypting_bind_eq_ok.mp hwalked
        cases hwalked
        exact walkFields_get hothers key
    | list items =>
        rw [walk] at hwalked
        obtain ⟨others, middle, hothers, hwalked⟩ := encrypting_bind_eq_ok.mp hwalked
        cases hwalked
        exact ⟨0, 0, walkField_null key 0⟩
    | null | bool | int | float | str => exact absurd trivial hleaf

theorem walkField_plain
    {key : String} (hkey : isSecretKey key = false) (child : Json) :
    walkField transform key child = walk transform child := by
  unfold walkField
  cases child <;> simp [secretText, hkey]

theorem isSecretKey_refresh :
    isSecretKey "refresh" = false := isSecretKey_plain _ (by simp)

theorem isSecretKey_endpointAuth :
    isSecretKey "token_endpoint_auth" = false := isSecretKey_plain _ (by simp)

/-- A walk acts on every field. -/
theorem walkFields_read
    {auth walked : Dict} (hwalked : walkFields transform auth draw = .ok (walked, next))
    (path : AuthPath) :
    ∃ first last, walkField transform path.key (path.read auth) first =
      .ok (path.read walked, last) := by
  have hrefresh : ∃ first last, walk transform (Dict.get auth "refresh") first =
      .ok (Dict.get walked "refresh", last) := by
    obtain ⟨first, last, hvalue⟩ := walkFields_get hwalked "refresh"
    rw [walkField_plain isSecretKey_refresh] at hvalue
    exact ⟨first, last, hvalue⟩
  cases path with
  | top key => exact walkFields_get hwalked key
  | refresh key =>
      obtain ⟨first, last, hvalue⟩ := hrefresh
      exact walk_field hvalue key
  | endpointAuth key =>
      obtain ⟨first, last, hvalue⟩ := hrefresh
      obtain ⟨start, stop, hinner⟩ := walk_field hvalue "token_endpoint_auth"
      rw [walkField_plain isSecretKey_endpointAuth] at hinner
      exact walk_field hinner key

end

end ManagedAgents
