import ManagedAgents.MemorySystem
import ManagedAgents.NormalizedPaths

/-!
# Rules of memory paths

What an accepted path looks like, and that its key stands for it.
-/

namespace ManagedAgents

open Fallible

/-- What every segment of a path keeps to. -/
structure ValidSegment (py : Interpreter) (segment : String) : Prop where
  nonempty : segment ≠ ""
  noDots : segment ∉ [".", ".."]
  visible : ∀ char ∈ segment.toList, py.category char ∉ ["Cc", "Cf"]

/-- The rules of `_validate_memory_path_text`. -/
structure ValidPath (py : Interpreter) (path : String) : Prop where
  slash : startswith path "/" = true
  bytes : (utf8 path).length ≤ MAX_MEMORY_PATH_BYTES
  nfc : py.normalizeNfc path = path
  some : (splitSlashes path).tail ≠ []
  segments : ∀ segment ∈ (splitSlashes path).tail, ValidSegment py segment

section

variable {py : Interpreter} {path : String}

theorem validPath_of_validate
    (hvalid : validateMemoryPathText py path = .ok ()) : ValidPath py path := by
  unfold validateMemoryPathText at hvalid
  dsimp only at hvalid
  split at hvalid
  · cases hvalid
  next hslash =>
  split at hvalid
  · cases hvalid
  next hbytes =>
  split at hvalid
  · cases hvalid
  next hnfc =>
  split at hvalid
  · cases hvalid
  next hsome =>
  split at hvalid
  · cases hvalid
  next hempty =>
  split at hvalid
  · cases hvalid
  next hdots =>
  split at hvalid
  · cases hvalid
  next hcontrol =>
  rw [Bool.not_eq_true, List.any_eq_false] at hempty hdots hcontrol
  refine ⟨by simpa using hslash, Nat.not_lt.mp hbytes, not_not.mp hnfc,
    (not_or.mp hsome).1, fun segment hsegment => ⟨?_, ?_, fun char hchar hcategory => ?_⟩⟩
  · simpa using hempty segment hsegment
  · simpa using hdots segment hsegment
  · have hnone := hcontrol segment hsegment
    unfold hasControlOrFormatCharacters at hnone
    rw [Bool.not_eq_true, List.any_eq_false] at hnone
    exact hnone char hchar (by simpa using hcategory)

/-- The segments of a path are those of its key. -/
theorem splitSlashes_pathKey
    (hvalid : validateMemoryPathText py path = .ok ()) :
    (splitSlashes path).tail = splitSlashes (pathKey path) := by
  have hpath := pathKey_of_valid hvalid
  generalize pathKey path = key at hpath
  have hlist : path.toList = '/' :: key.toList := by
    rw [hpath, String.toList_append]
    rfl
  have hsplit := List.splitOn_append_cons_self (a := '/') [] key.toList
  rw [List.nil_append] at hsplit
  unfold splitSlashes
  rw [hlist, hsplit]
  rfl

/-- Only the slashes of a path may be invisible characters. -/
theorem ValidPath.visible
    (hvalid : ValidPath py path) {char : Char} (hchar : char ∈ path.toList)
    (hslash : char ≠ '/') : py.category char ∉ ["Cc", "Cf"] := by
  obtain ⟨rest, hrest⟩ : ∃ rest, path.toList = '/' :: rest := by
    obtain ⟨rest, hrest⟩ := List.isPrefixOf_iff_prefix.mp hvalid.slash
    exact ⟨rest, hrest.symm⟩
  have htail : (splitSlashes path).tail = (rest.splitOn '/').map String.ofList := by
    have hsplit := List.splitOn_append_cons_self (a := '/') [] rest
    rw [List.nil_append] at hsplit
    unfold splitSlashes
    rw [hrest, hsplit]
    rfl
  rw [hrest] at hchar
  have hlater := (List.mem_cons.mp hchar).resolve_left hslash
  have hjoined : ['/'].intercalate (rest.splitOn '/') = rest :=
    List.intercalate_splitOn '/'
  rw [← hjoined] at hlater
  obtain ⟨segment, hsegment, hmem⟩ :=
    (Segments.mem_intercalate hlater).resolve_left hslash
  have hlisted : String.ofList segment ∈ (splitSlashes path).tail := by
    rw [htail]
    exact List.mem_map_of_mem hsegment
  exact (hvalid.segments _ hlisted).visible char (by simpa using hmem)

variable {value : Json}

/-- A list of the segments gives the path back, if stripping leaves them alone. -/
theorem normalizeMemoryPath_segments
    (hpath : normalizeMemoryPath py value = .ok path)
    (hstripped : ∀ segment ∈ splitSlashes (pathKey path), strip segment = segment) :
    normalizeMemoryPath py (.list ((splitSlashes (pathKey path)).map .str)) =
      .ok path := by
  obtain ⟨parts, hparts⟩ := normalizeMemoryPath_eq_ok.mp hpath
  have hsegments : splitSlashes (pathKey path) = parts := by
    have hkey := pathKey_of_valid hparts.valid
    have hremove : removeSlash path = pathKey path := by
      generalize pathKey path = key at hkey
      rw [hkey, removeSlash_slash]
    rw [← hremove]
    exact hparts.split
  have hvalid := (validPath_of_validate hparts.valid).segments
  rw [splitSlashes_pathKey hparts.valid] at hvalid
  refine normalizeMemoryPath_eq_ok.mpr
    ⟨parts, ?_, hparts.nonempty, hparts.slashless, hparts.joined, hparts.valid⟩
  have hstrip : ((splitSlashes (pathKey path)).map Json.str).map
      (fun part => strip (py.str part)) = splitSlashes (pathKey path) := by
    rw [List.map_map]
    exact (List.map_congr_left hstripped).trans (List.map_id _)
  unfold memoryPathParts
  dsimp only
  rw [hstrip, List.filter_eq_self.mpr, hsegments]
  intro segment hsegment
  simpa using (hvalid segment hsegment).nonempty

end

/-- An accepted path keeps the rules, is left alone by a second pass, comes back from
its segments, and is told from others by its key. -/
theorem normalizeMemoryPath_spec
    {py : Interpreter} {value : Json} {path : String}
    (hpath : normalizeMemoryPath py value = .ok path) :
    ValidPath py path ∧
      (∀ char ∈ path.toList, char ≠ '/' → py.category char ∉ ["Cc", "Cf"]) ∧
      normalizeMemoryPath py (.str path) = .ok path ∧
      ((∀ segment ∈ splitSlashes (pathKey path), strip segment = segment) →
        normalizeMemoryPath py (.list ((splitSlashes (pathKey path)).map .str)) =
          .ok path) ∧
      ∀ other otherPath, normalizeMemoryPath py other = .ok otherPath →
        (pathKey path = pathKey otherPath ↔ path = otherPath) := by
  obtain ⟨parts, hparts⟩ := normalizeMemoryPath_eq_ok.mp hpath
  have hvalid := validPath_of_validate hparts.valid
  refine ⟨hvalid, fun char hchar hslash => hvalid.visible hchar hslash,
    normalizeMemoryPath_idempotent hpath, normalizeMemoryPath_segments hpath,
    fun other otherPath hother => ?_⟩
  constructor
  · intro hkeys
    rw [normalizeMemoryPath_canonical hpath, hkeys,
      ← normalizeMemoryPath_canonical hother]
  · rintro rfl
    rfl

theorem sample_normalizeMemoryPath_spec :
    ValidPath sampleInterpreter "/a/b" ∧
      normalizeMemoryPath sampleInterpreter (.list [.str "a", .str "b"]) =
        .ok "/a/b" := by
  obtain ⟨hvalid, -, -, hlist, -⟩ :=
    @normalizeMemoryPath_spec sampleInterpreter (.str " /a/b ") "/a/b" (by decide)
  refine ⟨hvalid, ?_⟩
  have hsegments : splitSlashes (pathKey "/a/b") = ["a", "b"] := by decide
  rw [hsegments] at hlist
  exact hlist (by decide)

end ManagedAgents
