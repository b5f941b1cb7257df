import TypedRoutes.Proofs.PassedPlaces
import TypedRoutes.Proofs.WrittenAgain

/-! # What a writer lists

A writer lists the path of a document after it has written it, and a document that it cannot write
leaves the list and all files as they are.  No later document takes a path from where it leads.  So
after any documents each path of the list is read, and holds what was last written in its place;
and nothing but a directory keeps a document from being written where its path leads.
-/

namespace TypedRoutes

/-! ## Documents that are not written -/

section Documents
variable {files files' : FileTree} {directory : Location} {path text : String} {fault : Fault}

theorem wrote_of_writeDocument_eq_error
    (h : writeDocument files directory path text = (.error fault, files')) :
    files.Wrote directory [] files' := by
  have hparents : files.Wrote directory [] (makeParents files directory path).2 :=
    relates_makeParents (fun _ _ => FileTree.wrote_makeDirectory) files
  unfold writeDocument at h
  split at h
  · rename_i hmade
    obtain ⟨-, rfl⟩ := Prod.mk.inj h
    rwa [hmade] at hparents
  · rename_i hmade
    rw [hmade] at hparents
    split at h
    · obtain ⟨-, rfl⟩ := Prod.mk.inj h
      exact hparents
    · cases h

/-- Without a path that something is written at, all files are as they were. -/
theorem FileTree.Wrote.file_iff (h : files.Wrote directory [] files') (l : Location)
    (content : Content) :
    files'.node? l = some (.file content) ↔ files.node? l = some (.file content) := by
  refine ⟨fun hl => (h.file l content hl).resolve_right ?_, fun hl => h.unchanged hl ?_⟩
  · rintro ⟨path, hpath, -⟩
    cases hpath
  · exact fun path hpath => nomatch hpath

end Documents

/-! ## Documents that are written -/

section Documents
open FileTree Text

variable {files : FileTree} {directory l : Location} {path : String}

theorem FileTree.LeadsTo.isDirectory_parent (h : files.LeadsTo directory path l) {up : String}
    (hup : Path.parent? path = some up) (hne : up ≠ "") :
    files.isDirectory directory up = true := by
  obtain ⟨above, last, l', hpieces, hfollow, hl', -, -⟩ := h.way
  obtain ⟨rfl, -⟩ | ⟨rest, rfl⟩ := Path.eq_append_of_parent? hup hne
  · exact isDirectory_iff.2 ⟨[], rfl⟩
  have hstart : (startOf directory (up ++ "/" ++ rest)).1 = (startOf directory up).1 := by
    rw [startOf, startOf, Path.isAbsolute_append _ (by simp), Path.isAbsolute_append _ hne]
  -- the parent is followed over the first of the pieces before the last
  have hrest : splitOn '/' rest ≠ [] := by simp [splitOn, splitChars_ne_nil]
  obtain ⟨way, last', hway⟩ := (List.eq_nil_or_concat' _).resolve_left hrest
  have hsplit : splitOn '/' (up ++ "/" ++ rest) = above ++ [last] := hpieces
  rw [Path.splitOn_slash, hway, ← List.append_assoc] at hsplit
  obtain ⟨rfl, -⟩ := List.append_inj' hsplit rfl
  rw [hstart, follow_append] at hfollow
  cases hup' : files.follow (startOf directory up).1 (splitOn '/' up) with
  | error e =>
    rw [hup'] at hfollow
    cases hfollow
  | ok l₁ =>
    rw [hup'] at hfollow
    have hthere : files.node? l₁ = some .directory := by
      cases way with
      | nil =>
        obtain rfl := Except.ok.inj hfollow
        exact hl'
      | cons piece way => exact (follow_cons_eq_ok.1 hfollow).1
    exact isDirectory_iff.2 ⟨l₁, find_eq_ok.2 ⟨hne, hup', hthere⟩⟩

/-- A document is written where its path leads, unless a directory is there. -/
theorem writeDocument_of_leadsTo (h : files.LeadsTo directory path l)
    (hl : files.node? l ≠ some .directory) (text : String) :
    writeDocument files directory path text =
      (.ok (), files.setNode l (.file (.text text))) := by
  have hparents : makeParents files directory path = (.ok (), files) := by
    unfold makeParents
    split
    · rfl
    · rfl
    · rename_i up hne hup
      exact makeDirectories_of_isDirectory (h.isDirectory_parent hup (by simpa using hne))
  exact writeDocument_eq_ok.2 ⟨files, hparents, h.write hl _⟩

end Documents

namespace Writer
open FileTree

variable {w w' : Writer} {directory : Location} {path text : String} {fault : Fault}

/-! ## One document -/

theorem write_eq_ok : w.write directory path text = (.ok (), w') ↔
    writeDocument w.files directory path text = (.ok (), w'.files) ∧
      w'.written = w.written ++ [path] := by
  unfold write
  cases writeDocument w.files directory path text with
  | mk result files =>
    cases w'
    cases result <;> simp [eq_comm]

theorem write_eq_error : w.write directory path text = (.error fault, w') ↔
    writeDocument w.files directory path text = (.error fault, w'.files) ∧
      w'.written = w.written := by
  unfold write
  cases writeDocument w.files directory path text with
  | mk result files =>
    cases w'
    cases result <;> simp [eq_comm, and_assoc]

/-! ## One document after the other -/

abbrev Documents := List (String × String)

def writeAll (w : Writer) (directory : Location) (documents : Documents) : Writer :=
  documents.foldl (fun w document => (w.write directory document.1 document.2).2) w

def successes (w : Writer) (directory : Location) : Documents → Documents
  | [] => []
  | document :: documents =>
    match w.write directory document.1 document.2 with
    | (.ok (), w) => document :: w.successes directory documents
    | (.error _, w) => w.successes directory documents

/-- Of some documents the last for a place has this text; paths for one place may differ. -/
def LastFor (directory : Location) (documents : Documents) (place : Location) (text : String) :
    Prop :=
  ∃ before path after, documents = before ++ (path, text) :: after ∧
    locationOf directory path = place ∧
      ∀ document ∈ after, locationOf directory document.1 ≠ place

theorem lastFor_concat (documents : Documents) (path text : String) :
    LastFor directory (documents ++ [(path, text)]) (locationOf directory path) text :=
  ⟨documents, path, [], rfl, rfl, nofun⟩

theorem LastFor.concat {documents : Documents} {place : Location}
    (h : LastFor directory documents place text) {path' : String} (text' : String)
    (hplace : locationOf directory path' ≠ place) :
    LastFor directory (documents ++ [(path', text')]) place text := by
  obtain ⟨before, path, after, rfl, hpath, hafter⟩ := h
  refine ⟨before, path, after ++ [(path', text')], by simp, hpath, fun document hmem => ?_⟩
  obtain hmem | hmem := List.mem_append.1 hmem
  · exact hafter document hmem
  · rwa [List.mem_singleton.1 hmem]

/-- A writer lists some documents, and each is where its path leads unless another has taken its
place. -/
structure Lists (w : Writer) (directory : Location) (documents : Documents) : Prop where
  written : w.written = documents.map Prod.fst
  stands : ∀ document ∈ documents, ∃ text,
    LastFor directory documents (locationOf directory document.1) text ∧
      w.files.LeadsTo directory document.1 (locationOf directory document.1) ∧
        w.files.node? (locationOf directory document.1) = some (.file (.text text))

theorem Lists.write_ok {documents : Documents} (h : w.Lists directory documents)
    (hwrite : w.write directory path text = (.ok (), w')) :
    w'.Lists directory (documents ++ [(path, text)]) := by
  obtain ⟨hdocument, hwritten⟩ := write_eq_ok.1 hwrite
  obtain ⟨l, hleads, hl⟩ := leadsTo_of_writeDocument hdocument
  obtain rfl := hleads.eq_locationOf
  have hwrote := wrote_writeDocument w.files directory path text
  rw [hdocument] at hwrote
  refine ⟨by simp [hwritten, h.written], fun document hmem => ?_⟩
  have hcases : document = (path, text) ∨ document ∈ documents := by
    rwa [List.mem_append, List.mem_singleton, or_comm] at hmem
  obtain rfl | hmem := hcases
  · exact ⟨text, lastFor_concat documents path text, hleads, hl⟩
  · obtain ⟨text', hlast, hleads', hl'⟩ := h.stands document hmem
    have hstill := hwrote.keeps.leadsTo hleads'
    by_cases hplace : locationOf directory path = locationOf directory document.1
    · exact ⟨text, hplace ▸ lastFor_concat documents path text, hstill, hplace ▸ hl⟩
    · refine ⟨text', hlast.concat text hplace, hstill, hwrote.unchanged hl' ?_⟩
      intro path' hpath hleads'
      rw [List.mem_singleton.1 hpath] at hleads'
      exact hplace hleads'.eq_locationOf.symm

theorem Lists.write_error {documents : Documents} (h : w.Lists directory documents)
    (hwrite : w.write directory path text = (.error fault, w')) :
    w'.Lists directory documents := by
  obtain ⟨hdocument, hwritten⟩ := write_eq_error.1 hwrite
  have hwrote := wrote_of_writeDocument_eq_error hdocument
  refine ⟨hwritten.trans h.written, fun document hmem => ?_⟩
  obtain ⟨text', hlast, hleads, hl⟩ := h.stands document hmem
  exact ⟨text', hlast, hwrote.keeps.leadsTo hleads, (hwrote.file_iff _ _).2 hl⟩

theorem Lists.writeAll {documents : Documents} (h : w.Lists directory documents)
    (more : Documents) :
    (w.writeAll directory more).Lists directory (documents ++ w.successes directory more) := by
  induction more generalizing w documents with
  | nil =>
    rw [successes, List.append_nil]
    exact h
  | cons document more ih =>
    change ((w.write directory document.1 document.2).2.writeAll directory more).Lists directory _
    unfold successes
    split
    · rename_i w' hwrite
      rw [hwrite, List.append_cons]
      exact ih (h.write_ok hwrite)
    · rename_i w' hwrite
      rw [hwrite]
      exact ih (h.write_error hwrite)

/-- The list of a writer is the paths of the documents that were written, in their order; each is
read, and holds the text of the last of these documents in its place.  A document that cannot be
written changes neither the list nor a file, and one can be written wherever its path leads but in
place of a directory. -/
theorem written_files_read_back (files : FileTree) (directory : Location) (documents : Documents) :
    let w := ({ files } : Writer).writeAll directory documents
    let done := ({ files } : Writer).successes directory documents
    w.written = done.map Prod.fst ∧
      (∀ path ∈ w.written, ∃ text, LastFor directory done (locationOf directory path) text ∧
        w.files.find directory path = .ok (locationOf directory path, .file (.text text)) ∧
          w.files.readText directory path = .ok text) ∧
      ∀ (v : Writer) path text,
        (∀ fault v', v.write directory path text = (.error fault, v') →
          v'.written = v.written ∧ ∀ l content,
            v'.files.node? l = some (.file content) ↔ v.files.node? l = some (.file content)) ∧
        ∀ l, v.files.LeadsTo directory path l → v.files.node? l ≠ some .directory →
          ∃ v', v.write directory path text = (.ok (), v') := by
  intro w done
  have hnone : ({ files } : Writer).Lists directory [] := ⟨rfl, nofun⟩
  have hlists : w.Lists directory done := hnone.writeAll documents
  refine ⟨hlists.written, fun path hpath => ?_, fun v path text =>
    ⟨fun fault v' hwrite => ?_, fun l hleads hl => ?_⟩⟩
  · rw [hlists.written] at hpath
    obtain ⟨document, hmem, rfl⟩ := List.mem_map.1 hpath
    obtain ⟨text, hlast, hleads, hl⟩ := hlists.stands document hmem
    exact ⟨text, hlast, hleads.find hl, hleads.readText hl⟩
  · obtain ⟨hdocument, hwritten⟩ := write_eq_error.1 hwrite
    exact ⟨hwritten, (wrote_of_writeDocument_eq_error hdocument).file_iff⟩
  · exact ⟨⟨_, v.written ++ [path]⟩, write_eq_ok.2 ⟨writeDocument_of_leadsTo hleads hl text, rfl⟩⟩

/-- A document is replaced at another spelling of its path.  What cannot be written, here below a
file and in place of a directory, is not listed, and does not keep others from being written. -/
theorem respelled_document_read_back :
    let files : FileTree := ⟨[(["b"], .file (.text "old"))]⟩
    let documents : Documents :=
      [("a/x.ts", "one"), ("b/c/y.ts", "two"), ("./a/../a//x.ts", "three"), ("a/", "four")]
    let w := ({ files } : Writer).writeAll [] documents
    let done := ({ files } : Writer).successes [] documents
    let failed := w.write [] "b/c/y.ts" "five"
    (w.written = ["a/x.ts", "./a/../a//x.ts"] ∧ LastFor [] done ["a", "x.ts"] "three" ∧
      w.files.readText [] "a/x.ts" = .ok "three") ∧
    (failed.1 = .error (.file .notDirectory) ∧ failed.2.written = w.written ∧
      failed.2.files.node? ["b"] = some (.file (.text "old"))) ∧
    w.files.LeadsTo [] "./a//x.ts" ["a", "x.ts"] ∧
      w.files.node? ["a", "x.ts"] ≠ some .directory ∧
        ∃ v, w.write [] "./a//x.ts" "six" = (.ok (), v) := by
  intro files documents w done failed
  have hwritten : w.written = ["a/x.ts", "./a/../a//x.ts"] := by decide +kernel
  have hread : w.files.readText [] "a/x.ts" = .ok "three" := by decide +kernel
  have hfailed : failed.1 = .error (.file .notDirectory) := by decide +kernel
  have hwrite : failed = (.error (.file .notDirectory), failed.2) := by rw [← hfailed]
  have hplace : locationOf [] "a/x.ts" = ["a", "x.ts"] := by decide +kernel
  have hold : w.files.node? ["b"] = some (.file (.text "old")) := by decide +kernel
  have hway : w.files.follow [] [".", "a", ""] = .ok ["a"] := by decide +kernel
  have hthere : w.files.node? ["a"] = some .directory := by decide +kernel
  have hfree : w.files.node? ["a", "x.ts"] ≠ some .directory := by decide +kernel
  have hleads : w.files.LeadsTo [] "./a//x.ts" ["a", "x.ts"] :=
    ⟨by decide, [".", "a", ""], "x.ts", ["a"], by decide +kernel, hway, hthere, by decide, rfl⟩
  obtain ⟨-, hstands, hwrites⟩ := written_files_read_back files [] documents
  obtain ⟨text, hlast, -, htext⟩ := hstands "a/x.ts" (hwritten ▸ .head _)
  obtain rfl : text = "three" := Except.ok.inj (htext.symm.trans hread)
  obtain ⟨hsame, hkept⟩ := (hwrites w "b/c/y.ts" "five").1 _ failed.2 hwrite
  exact ⟨⟨hwritten, hplace ▸ hlast, hread⟩, ⟨hfailed, hsame, (hkept _ _).2 hold⟩, hleads, hfree,
    (hwrites w "./a//x.ts" "six").2 _ hleads hfree⟩

end Writer

end TypedRoutes
