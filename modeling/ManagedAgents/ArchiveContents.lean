import ManagedAgents.DictEquality
import ManagedAgents.SkillArchives

/-!
# Contents of skill archives

An archive has the files of its upload as members.  The first `SKILL.md` of the upload
is checked and the last one is read, and only distinct names make them the same.
-/

namespace ManagedAgents

open Fallible

/-! ## Paths -/

/-- The segments that a path in an archive may have. -/
def PlainSegments (segments : List String) : Prop :=
  ∀ segment ∈ segments, segment ∉ ["", ".", ".."]

/-- A path is normalised if normalising leaves it alone. -/
structure ZipPath (path : String) : Prop where
  plain : PlainSegments (splitSlashes path)
  fixed : normalizeZipPath path = .ok path

theorem normalizeZipPath_zipPath
    {filename path : String} (hpath : normalizeZipPath filename = .ok path) :
    ZipPath path := by
  unfold normalizeZipPath at hpath
  dsimp only at hpath
  generalize hraw : String.ofList
    (filename.toList.map fun c => if c = '\\' then '/' else c) =
    raw at hpath
  have hslashes : raw.toList.map (fun c => if c = '\\' then '/' else c) = raw.toList := by
    rw [← hraw, String.toList_ofList, List.map_map]
    refine List.map_congr_left fun c _ => ?_
    by_cases hc : c = '\\' <;> simp [hc]
  split at hpath
  · cases hpath
  next hrelative =>
    split at hpath
    · cases hpath
    next hplain =>
      have hsegments : PlainSegments (splitSlashes raw) := by
        intro segment hsegment hbad
        exact hplain (List.any_eq_true.mpr ⟨segment, hsegment, by simpa using hbad⟩)
      have hne : raw ≠ "" := by
        rintro rfl
        exact hsegments "" (by decide) (by decide)
      rw [joinSlashes_splitSlashes, textOr, if_neg hne, Except.ok.injEq] at hpath
      subst hpath
      refine ⟨hsegments, ?_⟩
      unfold normalizeZipPath
      dsimp only
      rw [hslashes, String.ofList_toList, if_neg hrelative, if_neg hplain,
        joinSlashes_splitSlashes, textOr, if_neg hne]

/-! ## Accepted files -/

section

variable {files : List SkillFile} {manifest : Dict}

theorem mapM_normalizeZipPath
    (hpaths : ∀ file ∈ files, ZipPath file.filename) :
    files.mapM (fun file => normalizeZipPath file.filename) =
      .ok (files.map SkillFile.filename) := by
  induction files with
  | nil => rfl
  | cons file rest ih =>
      rw [List.mapM_cons, (hpaths file List.mem_cons_self).fixed,
        ih fun other hother => hpaths other (List.mem_cons_of_mem _ hother)]
      rfl

theorem zipUploadedFiles_eq
    (hpaths : ∀ file ∈ files, ZipPath file.filename) :
    zipUploadedFiles files =
      .ok (files.map fun file => (zipInfoName file.filename, file.raw)) := by
  unfold zipUploadedFiles
  induction files with
  | nil => rfl
  | cons file rest ih =>
      rw [List.mapM_cons, (hpaths file List.mem_cons_self).fixed,
        ih fun other hother => hpaths other (List.mem_cons_of_mem _ hother)]
      rfl

/-- What is known of files whose manifest was accepted. -/
structure AcceptedFiles (files : List SkillFile) (top : String) (skillFile : SkillFile)
    (frontmatter manifest : Dict) : Prop where
  nonempty : files ≠ []
  under : ∀ file ∈ files, ∃ rest, rest ≠ [] ∧ splitSlashes file.filename = top :: rest
  first : files.find? (fun file => file.filename = top ++ "/SKILL.md") = some skillFile
  parsed : parseSkillFrontmatter skillFile.raw = .ok frontmatter
  manifest_eq : manifest = Dict.set frontmatter "top_level_directory" (.str top)

/-- Paths with at least two segments, the first of which they share. -/
theorem splitSlashes_under
    {paths : List String} {top : String}
    (hlong : ∀ path ∈ paths, 2 ≤ (splitSlashes path).length)
    (hshared : ∀ path ∈ paths, (splitSlashes path).headD "" = top) :
    ∀ path ∈ paths, ∃ rest, rest ≠ [] ∧ splitSlashes path = top :: rest := by
  intro path hpath
  have hlength := hlong path hpath
  have hhead := hshared path hpath
  cases hsegments : splitSlashes path with
  | nil => simp [hsegments] at hlength
  | cons first rest =>
      rw [hsegments, List.headD_cons] at hhead
      refine ⟨rest, ?_, by rw [hhead]⟩
      rintro rfl
      simp [hsegments] at hlength

theorem validateSkillFiles_accepted
    (hpaths : ∀ file ∈ files, ZipPath file.filename)
    (hmanifest : validateSkillFiles files = .ok manifest) :
    ∃ top skillFile frontmatter,
      AcceptedFiles files top skillFile frontmatter manifest := by
  unfold validateSkillFiles at hmanifest
  rw [mapM_normalizeZipPath hpaths] at hmanifest
  obtain ⟨_, hnonempty, hmanifest⟩ := bind_eq_ok.mp hmanifest
  obtain ⟨names, hnames, hmanifest⟩ := bind_eq_ok.mp hmanifest
  cases hnames
  obtain ⟨_, hlong, hmanifest⟩ := bind_eq_ok.mp hmanifest
  obtain ⟨_, hshared, hmanifest⟩ := bind_eq_ok.mp hmanifest
  generalize htop :
    (((files.map SkillFile.filename).map splitSlashes).headD []).headD "" =
    top at hshared hmanifest
  rw [raiseIf_eq_ok, Bool.not_eq_true, List.any_eq_false] at hlong hshared
  have hunder := @splitSlashes_under (files.map SkillFile.filename) top
    (fun path hpath => Nat.succ_le_of_lt
      (by simpa using hlong _ (List.mem_map_of_mem hpath)))
    (fun path hpath => by simpa using hshared _ (List.mem_map_of_mem hpath))
  have hsame : files.find? (fun file =>
      (normalizeZipPath file.filename).toOption = some (top ++ "/SKILL.md")) =
        files.find? fun file => file.filename = top ++ "/SKILL.md" := by
    refine List.find?_congr fun file hfile => ?_
    rw [(hpaths file hfile).fixed]
    simp [Except.toOption]
  dsimp only at hmanifest
  rw [hsame] at hmanifest
  cases hfound : files.find? fun file => file.filename = top ++ "/SKILL.md" with
  | none =>
      rw [hfound] at hmanifest
      cases hmanifest
  | some skillFile =>
      rw [hfound] at hmanifest
      obtain ⟨frontmatter, hparsed, hmanifest⟩ := bind_eq_ok.mp hmanifest
      obtain ⟨_, -, hmanifest⟩ := bind_eq_ok.mp hmanifest
      refine ⟨top, skillFile, frontmatter, ?_, ?_, hfound, hparsed, ?_⟩
      · rw [raiseIf_eq_ok] at hnonempty
        simpa using hnonempty
      · exact fun file hfile => hunder _ (List.mem_map_of_mem hfile)
      · rw [pure_eq_ok] at hmanifest
        exact hmanifest.symm

end

/-! ## Accepted uploads -/

/-- The files of an upload under their normalised names. -/
def uploadedFiles (py : Python) : SkillBody → Except HTTPException (List SkillFile)
  | .multipart form => formFiles form
  | .json (.dict body) =>
      match Dict.get body "files" with
      | .list (item :: items) => jsonFiles py (item :: items)
      | _ => .ok []
  | .json _ => .ok []

/-- The fields that a JSON body gives on its own. -/
def givenField : SkillBody → String → Json
  | .json (.dict body), key => Dict.get body key
  | _, _ => .null

section

variable {py : Python} {request : SkillBody} {files : List SkillFile}

theorem uploadedFile_zipPath
    {filename : String} {raw : List UInt8} {mimeType : Json} {file : SkillFile}
    (hfile : uploadedFile filename raw mimeType = .ok file) : ZipPath file.filename := by
  unfold uploadedFile at hfile
  simp only [bind_eq_ok, pure_eq_ok] at hfile
  obtain ⟨path, hpath, -, -, rfl⟩ := hfile
  exact normalizeZipPath_zipPath hpath

theorem jsonFile_zipPath
    {item : Dict} {file : SkillFile} (hfile : jsonFile py item = .ok file) :
    ZipPath file.filename := by
  unfold jsonFile at hfile
  simp only [bind_eq_ok, pure_eq_ok] at hfile
  obtain ⟨path, hpath, _, -, -, -, rfl⟩ := hfile
  exact normalizeZipPath_zipPath hpath

theorem uploadedFiles_zipPath
    (hfiles : uploadedFiles py request = .ok files) :
    ∀ file ∈ files, ZipPath file.filename := by
  intro file hfile
  unfold uploadedFiles at hfiles
  split at hfiles
  · obtain ⟨item, -, hitem⟩ := (mem_of_mapM hfiles).mp hfile
    exact uploadedFile_zipPath hitem
  · split at hfiles
    · obtain ⟨item, -, hitem⟩ := (mem_of_mapM hfiles).mp hfile
      exact jsonFile_zipPath hitem
    · cases hfiles
      cases hfile
  · cases hfiles
    cases hfile

/-- What an upload with files stores. -/
structure StoredUpload (request : SkillBody) (files : List SkillFile) (manifest : Dict)
    (upload : SkillUpload) : Prop where
  members : zipUploadedFiles files = .ok upload.members
  manifest_eq : validateSkillFiles files = .ok manifest
  records : Dict.get upload.data "files" = .list (files.map fileRecord)
  shown : Dict.get upload.data "manifest" = .dict manifest
  fields : ∀ key ∈ ["name", "description"],
    Dict.get upload.data key = (givenField request key).or (Dict.get manifest key)

theorem multipart_stored
    {form : List (String × FormValue)} {upload : SkillUpload}
    (hfiles : formFiles form = .ok files) (hnonempty : files ≠ [])
    (hupload : skillUploadFromRequest py (.multipart form) = .ok upload) :
    ∃ manifest, StoredUpload (.multipart form) files manifest upload := by
  unfold skillUploadFromRequest at hupload
  dsimp only at hupload
  rw [hfiles] at hupload
  obtain ⟨_, hsame, hupload⟩ := bind_eq_ok.mp hupload
  cases hsame
  rw [if_neg (by simpa using hnonempty)] at hupload
  obtain ⟨manifest, hmanifest, hupload⟩ := bind_eq_ok.mp hupload
  obtain ⟨members, hmembers, hupload⟩ := bind_eq_ok.mp hupload
  cases hupload
  refine ⟨manifest, hmembers, hmanifest, ?_, ?_, ?_⟩
  · simp [Dict.get]
  · simp [Dict.get]
  · intro key hkey
    have hgiven : (givenField (.multipart form) key).or (Dict.get manifest key) =
        Dict.get manifest key := rfl
    rw [hgiven]
    rw [List.mem_pair] at hkey
    rcases hkey with rfl | rfl
    · simp [Dict.get]
    · simp [Dict.get]

theorem json_stored
    {body : Dict} {upload : SkillUpload}
    (hfiles : uploadedFiles py (.json (.dict body)) = .ok files) (hnonempty : files ≠ [])
    (hupload : skillUploadFromRequest py (.json (.dict body)) = .ok upload) :
    ∃ manifest, StoredUpload (.json (.dict body)) files manifest upload := by
  unfold uploadedFiles at hfiles
  unfold skillUploadFromRequest at hupload
  dsimp only at hfiles hupload
  cases hlisted : Dict.get body "files" with
  | list items =>
      cases items with
      | nil =>
          rw [hlisted] at hfiles
          cases hfiles
          exact absurd rfl hnonempty
      | cons item items =>
          rw [hlisted] at hfiles hupload
          dsimp only at hfiles hupload
          rw [hfiles] at hupload
          obtain ⟨_, hsame, hupload⟩ := bind_eq_ok.mp hupload
          cases hsame
          obtain ⟨manifest, hmanifest, hupload⟩ := bind_eq_ok.mp hupload
          obtain ⟨members, hmembers, hupload⟩ := bind_eq_ok.mp hupload
          cases hupload
          refine ⟨manifest, hmembers, hmanifest, ?_, ?_, ?_⟩
          · simp [Dict.update]
          · simp [Dict.update]
          · intro key hkey
            rw [List.mem_pair] at hkey
            rcases hkey with rfl | rfl
            · simp [Dict.update, givenField]
            · simp [Dict.update, givenField]
  | _ =>
      rw [hlisted] at hfiles
      cases hfiles
      exact absurd rfl hnonempty

theorem upload_stored
    {upload : SkillUpload} (hfiles : uploadedFiles py request = .ok files)
    (hnonempty : files ≠ []) (hupload : skillUploadFromRequest py request = .ok upload) :
    ∃ manifest, StoredUpload request files manifest upload := by
  cases request with
  | multipart form => exact multipart_stored hfiles hnonempty hupload
  | json body =>
      cases body with
      | dict body => exact json_stored hfiles hnonempty hupload
      | _ => cases hupload

end

/-! ## What archives contain -/

/-- The archive contains what the stored fields of its version say. -/
structure ArchiveMatches (top : String) (members : List Member)
    (stored : Dict) : Prop where
  distinct : (members.map Prod.fst).Nodup
  directory : ∀ member ∈ members, ∃ rest, rest ≠ [] ∧
    splitSlashes member.1 = top :: rest ∧ PlainSegments (top :: rest)
  files : ∃ records : List Json, Dict.get stored "files" = .list records ∧
    (records.map fun record => record.get "filename") =
      members.map fun member => Json.str member.1
  manifest : ∃ raw frontmatter,
    readMember members (top ++ "/SKILL.md") = some raw ∧
      parseSkillFrontmatter raw = .ok frontmatter ∧
      Dict.get stored "manifest" =
        .dict (Dict.set frontmatter "top_level_directory" (.str top)) ∧
      ∀ key ∈ ["name", "description"], Dict.get stored key = Dict.get frontmatter key

/-- The file is the `SKILL.md` of its top-level directory. -/
def IsSkillFile (file : SkillFile) : Prop :=
  file.filename = (splitSlashes file.filename).headD "" ++ "/SKILL.md"

/-- No two files have one name, no name has a null character, and the body gives no
other name or description than its `SKILL.md`. -/
structure ConsistentUpload (request : SkillBody) (files : List SkillFile) : Prop where
  distinct : (files.map SkillFile.filename).Nodup
  whole : ∀ file ∈ files, Char.ofNat 0 ∉ file.filename.toList
  given : ∀ file ∈ files, IsSkillFile file → ∀ frontmatter,
    parseSkillFrontmatter file.raw = .ok frontmatter → ∀ key ∈ ["name", "description"],
      (givenField request key).or (Dict.get frontmatter key) = Dict.get frontmatter key

section

variable {files : List SkillFile} {members : List Member}

theorem zipInfoName_eq_iff {filename : String} :
    zipInfoName filename = filename ↔ Char.ofNat 0 ∉ filename.toList := by
  unfold zipInfoName
  constructor
  · intro hsame hnull
    have hlist := congrArg String.toList hsame
    rw [String.toList_ofList, List.takeWhile_eq_self_iff] at hlist
    simpa using hlist _ hnull
  · intro hwhole
    rw [List.takeWhile_eq_self_iff.mpr, String.ofList_toList]
    intro char hchar
    have hne : char ≠ Char.ofNat 0 := by
      rintro rfl
      exact hwhole hchar
    simpa using hne

/-- With distinct names the last member of a name is the only one. -/
theorem readMember_eq_some
    (hdistinct : (members.map Prod.fst).Nodup) {name : String} {raw : List UInt8} :
    readMember members name = some raw ↔ (name, raw) ∈ members := by
  unfold readMember
  rw [Option.map_eq_some_iff]
  constructor
  · rintro ⟨⟨found, value⟩, hfound, rfl⟩
    have hname := List.find?_some hfound
    obtain rfl : found = name := by simpa using hname
    exact List.mem_reverse.mp (List.mem_of_find?_eq_some hfound)
  · intro hmem
    have hexists :
        (members.reverse.find? fun member => member.1 = name).isSome = true := by
      rw [List.find?_isSome]
      exact ⟨(name, raw), List.mem_reverse.mpr hmem, by simp⟩
    obtain ⟨found, hfound⟩ := Option.isSome_iff_exists.mp hexists
    have hname : found.1 = name := by simpa using List.find?_some hfound
    have hsame := List.inj_on_of_nodup_map hdistinct
      (List.mem_reverse.mp (List.mem_of_find?_eq_some hfound)) hmem hname
    exact ⟨found, hfound, congrArg Prod.snd hsame⟩

theorem AcceptedFiles.isSkillFile_iff
    {top : String} {skillFile file : SkillFile} {frontmatter manifest : Dict}
    (haccepted : AcceptedFiles files top skillFile frontmatter manifest)
    (hfile : file ∈ files) : IsSkillFile file ↔ file.filename = top ++ "/SKILL.md" := by
  obtain ⟨rest, -, hsegments⟩ := haccepted.under file hfile
  unfold IsSkillFile
  rw [hsegments, List.headD_cons]

/-- The stored fields of the version, as far as the archive is concerned. -/
theorem StoredUpload.version
    {request : SkillBody} {manifest : Dict} {upload : SkillUpload}
    (hstored : StoredUpload request files manifest upload) (number : ℤ) :
    Dict.get (skillVersionData number upload.data) "files" =
        .list (files.map fileRecord) ∧
      Dict.get (skillVersionData number upload.data) "manifest" = .dict manifest ∧
      ∀ key ∈ ["name", "description"],
        Dict.get (skillVersionData number upload.data) key =
          (givenField request key).or (Dict.get manifest key) := by
  have hcontains : Dict.contains upload.data "files" = true :=
    Dict.contains_of_get (by simp [hstored.records])
  refine ⟨?_, ?_, fun key hkey => ?_⟩
  · simp [skillVersionData, Dict.get, hcontains, hstored.records]
  · simp [skillVersionData, Dict.get, hstored.shown]
  · rw [← hstored.fields key hkey]
    rw [List.mem_pair] at hkey
    rcases hkey with rfl | rfl
    · simp [skillVersionData, Dict.get]
    · simp [skillVersionData, Dict.get]

theorem fileRecord_filename (file : SkillFile) :
    (fileRecord file).get "filename" = .str file.filename := by
  simp [fileRecord, Json.get, Dict.get]

end

/-- The archive of an accepted upload contains what its version says exactly if the
upload is consistent. -/
theorem archive_matches_iff
    {py : Python} {request : SkillBody} {files : List SkillFile} {upload : SkillUpload}
    (hfiles : uploadedFiles py request = .ok files) (hnonempty : files ≠ [])
    (hupload : skillUploadFromRequest py request = .ok upload) (number : ℤ) :
    (∃ top, ArchiveMatches top upload.members (skillVersionData number upload.data)) ↔
      ConsistentUpload request files := by
  have hpaths := uploadedFiles_zipPath hfiles
  obtain ⟨manifest, hstored⟩ := upload_stored hfiles hnonempty hupload
  obtain ⟨top, skillFile, frontmatter, haccepted⟩ :=
    validateSkillFiles_accepted hpaths hstored.manifest_eq
  obtain ⟨hrecords, hmanifest, hfields⟩ := hstored.version number
  have hmembers := hstored.members
  rw [zipUploadedFiles_eq hpaths, Except.ok.injEq] at hmembers
  have hskillFile := List.mem_of_find?_eq_some haccepted.first
  have hskillName : skillFile.filename = top ++ "/SKILL.md" := by
    simpa using List.find?_some haccepted.first
  have hfrontmatter : ∀ key ∈ ["name", "description"],
      Dict.get manifest key = Dict.get frontmatter key := by
    intro key hkey
    rw [haccepted.manifest_eq]
    refine Dict.get_set_other _ ?_
    rintro rfl
    simp at hkey
  -- without null characters the members have the names of the files
  have hplain : (∀ file ∈ files, Char.ofNat 0 ∉ file.filename.toList) →
      upload.members = files.map fun file => (file.filename, file.raw) := by
    intro hwhole
    rw [← hmembers]
    refine List.map_congr_left fun file hfile => ?_
    rw [zipInfoName_eq_iff.mpr (hwhole file hfile)]
  constructor
  · rintro ⟨same, hmatches⟩
    have hwhole : ∀ file ∈ files, Char.ofNat 0 ∉ file.filename.toList := by
      obtain ⟨records, hsame, hnames⟩ := hmatches.files
      rw [hrecords, Json.list.injEq] at hsame
      rw [← hsame, ← hmembers, List.map_map, List.map_map, List.map_inj_left] at hnames
      intro file hfile
      have hname := hnames file hfile
      simp only [Function.comp_apply, fileRecord_filename, Json.str.injEq] at hname
      exact zipInfoName_eq_iff.mp hname.symm
    have hlisted := hplain hwhole
    have hdistinct : (files.map SkillFile.filename).Nodup := by
      have hnodup := hmatches.distinct
      rw [hlisted, List.map_map] at hnodup
      exact hnodup
    refine ⟨hdistinct, hwhole, ?_⟩
    intro file hfile hskill parsed hparsed key hkey
    obtain ⟨raw, read, -, -, hshown, hstoredFields⟩ := hmatches.manifest
    have hsame : file = skillFile := List.inj_on_of_nodup_map hdistinct hfile hskillFile
      (((haccepted.isSkillFile_iff hfile).mp hskill).trans hskillName.symm)
    rw [hsame, haccepted.parsed, Except.ok.injEq] at hparsed
    have hread : Dict.get read key = Dict.get frontmatter key := by
      have hne : "top_level_directory" ≠ key := by
        rintro rfl
        simp at hkey
      rw [hmanifest, Json.dict.injEq, haccepted.manifest_eq] at hshown
      have hget := congrArg (fun fields => Dict.get fields key) hshown
      simpa [Dict.get_set_other _ hne] using hget.symm
    rw [← hparsed, ← hfrontmatter key hkey, ← hfields key hkey, hstoredFields key hkey,
      hread, hfrontmatter key hkey]
  · intro hconsistent
    have hlisted := hplain hconsistent.whole
    have hdistinct : (upload.members.map Prod.fst).Nodup := by
      rw [hlisted, List.map_map]
      exact hconsistent.distinct
    refine ⟨top, hdistinct, ?_, ⟨_, hrecords, ?_⟩, skillFile.raw, frontmatter, ?_,
      haccepted.parsed, ?_, ?_⟩
    · intro member hmember
      rw [hlisted] at hmember
      obtain ⟨file, hfile, rfl⟩ := List.mem_map.mp hmember
      obtain ⟨rest, hrest, hsegments⟩ := haccepted.under file hfile
      exact ⟨rest, hrest, hsegments, hsegments ▸ (hpaths file hfile).plain⟩
    · rw [hlisted, List.map_map, List.map_map]
      refine List.map_congr_left fun file _ => ?_
      exact fileRecord_filename file
    · rw [readMember_eq_some hdistinct, hlisted]
      exact List.mem_map.mpr ⟨skillFile, hskillFile, by rw [hskillName]⟩
    · rw [hmanifest, haccepted.manifest_eq]
    · intro key hkey
      rw [hfields key hkey, hfrontmatter key hkey]
      exact hconsistent.given skillFile hskillFile
        ((haccepted.isSkillFile_iff hskillFile).mpr hskillName) frontmatter
        haccepted.parsed key hkey

def skillText (name : String) : List UInt8 :=
  utf8 ("---\nname: " ++ name ++ "\ndescription: Use sources.\n---\n")

/-- A form with a file for each path. -/
def skillForm (files : List (String × String)) : SkillBody :=
  .multipart <| files.map fun file =>
    ("files", .file file.1 (skillText file.2) (some "text/markdown"))

def listedFiles (files : List (String × String)) : List SkillFile :=
  files.map fun file =>
    { filename := file.1, raw := skillText file.2, mimeType := .str "text/markdown" }

def severalSkillFiles : List (String × String) :=
  [("skill/SKILL.md", "research"), ("skill/notes/sources.md", "sources"),
   ("skill/notes/SKILL.md", "nested")]

theorem sample_archive_matches_iff :
    ∃ upload, skillUploadFromRequest samplePython (skillForm severalSkillFiles) =
      .ok upload ∧
      ∃ top, ArchiveMatches top upload.members (skillVersionData 1 upload.data) := by
  have haccepted : (skillUploadFromRequest samplePython
      (skillForm severalSkillFiles)).toOption.isSome = true := by
    decide +kernel
  have hupload := eq_ok_get haccepted
  have hfiles : uploadedFiles samplePython (skillForm severalSkillFiles) =
      .ok (listedFiles severalSkillFiles) := by
    decide +kernel
  refine ⟨_, hupload,
    (archive_matches_iff hfiles (by decide) hupload 1).mpr ⟨by decide +kernel, ?_, ?_⟩⟩
  · decide +kernel
  · intro file hfile hskill frontmatter hparsed key hkey
    rfl

/-- Two spellings of one path: the first is checked, the second is read. -/
def twoSkillFiles : List (String × String) :=
  [("skill\\SKILL.md", "research"), ("skill/SKILL.md", "other")]

def twoFilesUpload : SkillUpload :=
  (skillUploadFromRequest samplePython (skillForm twoSkillFiles)).toOption.get
    (by decide +kernel)

theorem checked_file_is_not_read :
    skillUploadFromRequest samplePython (skillForm twoSkillFiles) = .ok twoFilesUpload ∧
      Dict.get twoFilesUpload.data "name" = .str "research" ∧
      readMember twoFilesUpload.members "skill/SKILL.md" = some (skillText "other") ∧
      ¬∃ top, ArchiveMatches top twoFilesUpload.members
        (skillVersionData 1 twoFilesUpload.data) := by
  refine ⟨eq_ok_get _, by decide +kernel, by decide +kernel, ?_⟩
  rintro ⟨top, hmatches⟩
  have hrepeated : ¬(twoFilesUpload.members.map Prod.fst).Nodup := by
    decide +kernel
  exact hrepeated hmatches.distinct

end ManagedAgents
