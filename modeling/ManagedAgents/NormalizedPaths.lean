import ManagedAgents.Library.Fallible
import ManagedAgents.Library.Segments
import ManagedAgents.MemoryPaths
import Mathlib.Data.List.DropRight

/-!
# Normalised memory paths

A normalised path is a slash and the path key, and normalising it again changes
nothing.
-/

namespace ManagedAgents

open Fallible

/-! ## Segments of texts -/

theorem map_toList_splitSlashes (text : String) :
    (splitSlashes text).map String.toList = text.toList.splitOn '/' := by
  simp [splitSlashes, Function.comp_def]

theorem splitSlashes_ne_nil (text : String) : splitSlashes text ≠ [] := by
  simp [splitSlashes, List.splitOn_ne_nil]

theorem joinSlashes_splitSlashes (text : String) :
    joinSlashes (splitSlashes text) = text := by
  unfold joinSlashes
  rw [map_toList_splitSlashes, List.intercalate_splitOn]
  exact String.ofList_toList

/-! ## Normalised paths -/

section

variable {py : Interpreter}

theorem pathKey_of_valid
    {path : String} {value : Unit} (hvalid : validateMemoryPathText py path = .ok value) :
    path = "/" ++ pathKey path := by
  unfold validateMemoryPathText at hvalid
  dsimp only at hvalid
  split at hvalid
  · cases hvalid
  next hslash =>
    simp only [startswith, Bool.not_eq_true', Bool.not_eq_false] at hslash
    obtain ⟨rest, hrest⟩ : ∃ rest, path.toList = '/' :: rest := by
      obtain ⟨rest, hrest⟩ := List.isPrefixOf_iff_prefix.mp hslash
      exact ⟨rest, hrest.symm⟩
    have hsplit : (splitSlashes path).tail = (rest.splitOn '/').map String.ofList := by
      have hfirst := List.splitOn_append_cons_self (a := '/') [] rest
      rw [List.nil_append] at hfirst
      simp [splitSlashes, hrest, hfirst]
    split at hvalid
    · cases hvalid
    split at hvalid
    · cases hvalid
    split at hvalid
    · cases hvalid
    next =>
      split at hvalid
      · cases hvalid
      next hempty =>
        have hsegments : [] ∉ rest.splitOn '/' := by
          intro hmem
          apply hempty
          rw [hsplit]
          exact List.any_eq_true.mpr ⟨"", List.mem_map.mpr ⟨[], hmem, rfl⟩, by simp⟩
        obtain ⟨hfront, hback⟩ := Segments.dropWhile_of_splitOn hsegments
        have hkey : (pathKey path).toList = rest := by
          simp [pathKey, stripSlashes, hrest, hfront, hback]
        apply String.toList_injective
        rw [String.toList_append, hkey, hrest]
        rfl

/-- The parts of a normalised path. -/
structure PathParts (py : Interpreter) (value : Json) (path : String)
    (parts : List String) : Prop where
  cut : memoryPathParts py value = .ok parts
  nonempty : parts ≠ []
  slashless : ∀ part ∈ parts, '/' ∉ part.toList
  joined : path = "/" ++ joinSlashes parts
  valid : validateMemoryPathText py path = .ok ()

theorem normalizeMemoryPath_eq_ok
    {value : Json} {path : String} :
    normalizeMemoryPath py value = .ok path ↔ ∃ parts, PathParts py value path parts := by
  unfold normalizeMemoryPath
  simp only [bind_eq_ok]
  constructor
  · rintro ⟨parts, hparts, hpath⟩
    split at hpath
    · cases hpath
    next hnonempty =>
      split at hpath
      · cases hpath
      next hslashless =>
        obtain ⟨⟨⟩, hvalid, hpath⟩ := bind_eq_ok.mp hpath
        cases hpath
        exact ⟨parts, hparts, hnonempty, by simpa using hslashless, rfl, hvalid⟩
  · rintro ⟨parts, hparts, hnonempty, hslashless, rfl, hvalid⟩
    refine ⟨parts, hparts, ?_⟩
    rw [if_neg hnonempty, if_neg (by simpa using hslashless)]
    exact bind_eq_ok.mpr ⟨(), hvalid, rfl⟩

/-- A normalised path is a slash and its key. -/
theorem normalizeMemoryPath_canonical
    {value : Json} {path : String} (hpath : normalizeMemoryPath py value = .ok path) :
    path = "/" ++ pathKey path := by
  obtain ⟨parts, hparts⟩ := normalizeMemoryPath_eq_ok.mp hpath
  exact pathKey_of_valid hparts.valid

/-- The text does not end in white space. -/
def EndsVisible (chars : List Char) : Prop :=
  chars.rdropWhile isspace = chars

theorem strip_endsVisible (text : String) : EndsVisible (strip text).toList := by
  unfold EndsVisible strip
  rw [String.toList_ofList]
  exact List.rdropWhile_idempotent _ _

theorem EndsVisible.append
    {front back : List Char} (hback : EndsVisible back) (hne : back ≠ []) :
    EndsVisible (front ++ back) := by
  unfold EndsVisible at hback ⊢
  rw [List.rdropWhile_eq_self_iff] at hback ⊢
  intro hwhole
  rw [List.getLast_append_of_ne_nil hwhole hne]
  exact hback hne

theorem strip_eq_self
    {text : String} {rest : List Char} (htext : text.toList = '/' :: rest)
    (hends : EndsVisible text.toList) : strip text = text := by
  apply String.toList_injective
  have hfront : text.toList.dropWhile isspace = text.toList := by
    rw [htext]
    exact List.dropWhile_cons_of_neg (by decide)
  unfold strip
  rw [String.toList_ofList, hfront]
  exact hends

theorem joinSlashes_last (front : List String) (last : String) :
    ∃ chars, (joinSlashes (front ++ [last])).toList = chars ++ last.toList := by
  unfold joinSlashes
  rw [String.toList_ofList, List.map_append]
  cases front with
  | nil => exact ⟨[], by simp⟩
  | cons first rest =>
      refine ⟨['/'].intercalate ((first :: rest).map String.toList) ++ ['/'], ?_⟩
      rw [Segments.intercalate_append _ (by simp) (by simp)]
      simp

theorem removeSlash_slash (text : String) : removeSlash ("/" ++ text) = text := by
  have hslash : ("/" ++ text).toList = '/' :: text.toList := by
    rw [String.toList_append]
    rfl
  unfold removeSlash
  rw [hslash]
  exact String.ofList_toList

section

variable {value : Json} {path : String} {parts : List String}

theorem PathParts.split
    (hparts : PathParts py value path parts) :
    splitSlashes (removeSlash path) = parts := by
  have hslashless : ∀ segment ∈ parts.map String.toList, '/' ∉ segment := by
    intro segment hsegment
    obtain ⟨part, hpart, rfl⟩ := List.mem_map.mp hsegment
    exact hparts.slashless part hpart
  rw [hparts.joined, removeSlash_slash]
  unfold splitSlashes joinSlashes
  rw [String.toList_ofList,
    Segments.splitOn_join hslashless (by simpa using hparts.nonempty)]
  simp [Function.comp_def]

theorem PathParts.endsVisible
    (hparts : PathParts py value path parts) : EndsVisible path.toList := by
  have hcut := hparts.cut
  unfold memoryPathParts at hcut
  split at hcut
  · cases hcut
  next text =>
    simp only [bind_eq_ok, pure_eq_ok] at hcut
    obtain ⟨⟨⟩, hvalid, rfl⟩ := hcut
    have htext := pathKey_of_valid hvalid
    have hpath : path = strip text := by
      rw [hparts.joined, joinSlashes_splitSlashes]
      generalize pathKey (strip text) = key at htext
      rw [htext, removeSlash_slash]
    rw [hpath]
    exact strip_endsVisible text
  next items =>
    simp only [Except.ok.injEq] at hcut
    obtain ⟨front, last, hlast⟩ :=
      (List.eq_nil_or_concat' parts).resolve_left hparts.nonempty
    have hmem : last ∈ parts := by simp [hlast]
    rw [← hcut] at hmem
    obtain ⟨hstripped, hvisible⟩ := List.mem_filter.mp hmem
    obtain ⟨item, -, hitem⟩ := List.mem_map.mp hstripped
    obtain ⟨chars, hchars⟩ := joinSlashes_last front last
    have hne : last.toList ≠ [] := by simpa using hvisible
    have hends : EndsVisible last.toList := hitem ▸ strip_endsVisible _
    rw [hparts.joined, hlast, String.toList_append, hchars, ← List.append_assoc]
    exact hends.append hne
  · cases hcut

end

/-- A normalised path is normalised already. -/
theorem normalizeMemoryPath_idempotent
    {value : Json} {path : String} (hpath : normalizeMemoryPath py value = .ok path) :
    normalizeMemoryPath py (.str path) = .ok path := by
  obtain ⟨parts, hparts⟩ := normalizeMemoryPath_eq_ok.mp hpath
  have hslash : path.toList = '/' :: (joinSlashes parts).toList := by
    rw [hparts.joined, String.toList_append]
    rfl
  refine normalizeMemoryPath_eq_ok.mpr
    ⟨parts, ?_, hparts.nonempty, hparts.slashless, hparts.joined, hparts.valid⟩
  unfold memoryPathParts
  dsimp only
  rw [strip_eq_self hslash hparts.endsVisible]
  refine bind_eq_ok.mpr ⟨(), hparts.valid, ?_⟩
  rw [hparts.split]
  rfl

theorem normalizeMemoryPath_null {path : String} :
    normalizeMemoryPath py .null ≠ .ok path := by
  intro hpath
  cases hpath

theorem normalizeMemoryPath_empty {path : String} :
    normalizeMemoryPath py (.str "") ≠ .ok path := by
  intro hpath
  cases hpath

end

end ManagedAgents
