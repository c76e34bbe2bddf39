import Switchback.Compress.Filters

/-!
# The summaries of diffs

A unified diff has header lines and content lines, and the summary of a diff classifies one line
at a time.
-/

namespace Switchback

namespace Compress

open Lib

/-! ### Diffs -/

/-- The text of a line. -/
abbrev LineText := { text : Line // '\n' ∉ text }

/-- A line of a hunk.  An empty context line may lose its blank. -/
inductive DiffLine where
  | context (text : LineText)
  | blank
  | added (text : LineText)
  | removed (text : LineText)
  | noNewline (text : LineText)

namespace DiffLine

def render : DiffLine → Line
  | context text => ' ' :: text.1
  | blank => []
  | added text => '+' :: text.1
  | removed text => '-' :: text.1
  | noNewline text => '\\' :: text.1

def isAdded : DiffLine → Bool
  | added _ => true
  | _ => false

def isRemoved : DiffLine → Bool
  | removed _ => true
  | _ => false

/-- An added or a removed line that begins as the header with the names of a file does. -/
def looksLikeHeader : DiffLine → Bool
  | added text => Text.startsWithList "++" text.1
  | removed text => Text.startsWithList "--" text.1
  | _ => false

end DiffLine

structure Hunk where
  range : LineText
  lines : List DiffLine

def Hunk.render (hunk : Hunk) : List Line :=
  ("@@ ".toList ++ hunk.range.1) :: hunk.lines.map DiffLine.render

/-- The lines that may stand between the first line of a file and its names. -/
inductive Extended where
  | index
  | oldMode
  | newMode
  | deletedFileMode
  | newFileMode
  | copyFrom
  | copyTo
  | renameFrom
  | renameTo
  | similarityIndex
  | dissimilarityIndex
  | binaryFiles

def Extended.keyword : Extended → String
  | index => "index "
  | oldMode => "old mode "
  | newMode => "new mode "
  | deletedFileMode => "deleted file mode "
  | newFileMode => "new file mode "
  | copyFrom => "copy from "
  | copyTo => "copy to "
  | renameFrom => "rename from "
  | renameTo => "rename to "
  | similarityIndex => "similarity index "
  | dissimilarityIndex => "dissimilarity index "
  | binaryFiles => "Binary files "

/-- A file of a diff: the names after `diff --git`, the extended headers, the old and the new name
where there are hunks, and the hunks. -/
structure FileDiff where
  names : LineText
  extended : List (Extended × LineText)
  paths : Option (LineText × LineText)
  hunks : List Hunk

namespace FileDiff

def headers (file : FileDiff) : List Line :=
  file.extended.map (fun (header, text) => header.keyword.toList ++ text.1) ++
    match file.paths with
    | some (old, new) => ["--- ".toList ++ old.1, "+++ ".toList ++ new.1]
    | none => []

def body (file : FileDiff) : List Line := file.headers ++ file.hunks.flatMap Hunk.render

def render (file : FileDiff) : List Line := ("diff --git ".toList ++ file.names.1) :: file.body

/-- The lines of all hunks. -/
def content (file : FileDiff) : List DiffLine := file.hunks.flatMap Hunk.lines

/-- What the summary should say of a file. -/
def count (file : FileDiff) : FileCount where
  path := diffPath (Text.dropCr file.names.1)
  added := file.content.countP DiffLine.isAdded
  removed := file.content.countP DiffLine.isRemoved

end FileDiff

/-- The text of a diff. -/
def render (files : List FileDiff) : String :=
  String.ofList (Text.unlines (files.flatMap FileDiff.render))

/-- The summary of a diff; no file, no summary. -/
def summary : List FileDiff → String
  | [] => ""
  | files => "[git diff summary]" ++ String.join (files.map fun file => file.count.report)

theorem notMem_render {files : List FileDiff} :
    ∀ line ∈ files.flatMap FileDiff.render, '\n' ∉ line := by
  have happend {p : String} (hp : '\n' ∉ p.toList) (text : LineText) :
      '\n' ∉ p.toList ++ text.1 := by
    rw [List.mem_append, not_or]
    exact ⟨hp, text.2⟩
  have hcons {c : Char} (hc : '\n' ≠ c) (text : LineText) : '\n' ∉ c :: text.1 := by
    rw [List.mem_cons, not_or]
    exact ⟨hc, text.2⟩
  have hdiff (line : DiffLine) : '\n' ∉ line.render := by
    cases line with
    | blank => exact List.not_mem_nil
    | context text | added text | removed text | noNewline text => exact hcons (by decide) text
  have hheader (header : Extended) : '\n' ∉ header.keyword.toList := by
    cases header <;> decide
  intro line hline
  obtain ⟨file, -, hfile⟩ := List.mem_flatMap.1 hline
  unfold FileDiff.render FileDiff.body FileDiff.headers at hfile
  rw [List.mem_cons, List.mem_append, List.mem_append] at hfile
  rcases hfile with rfl | (hext | hpaths) | hhunks
  · exact happend (by decide) _
  · obtain ⟨header, -, rfl⟩ := List.mem_map.1 hext
    exact happend (hheader header.1) header.2
  · cases hp : file.paths with
    | none =>
      rw [hp] at hpaths
      cases hpaths
    | some paths =>
      rw [hp] at hpaths
      rcases List.mem_pair.1 hpaths with rfl | rfl
      · exact happend (by decide) _
      · exact happend (by decide) _
  · obtain ⟨hunk, -, hhunk⟩ := List.mem_flatMap.1 hhunks
    rcases List.mem_cons.1 hhunk with rfl | hlines
    · exact happend (by decide) _
    · obtain ⟨dl, -, rfl⟩ := List.mem_map.1 hlines
      exact hdiff dl

/-- The lines of a diff are those it is put together of, without carriage returns at the end. -/
theorem lines_render (files : List FileDiff) :
    Text.lines (render files).toList =
      (files.flatMap FileDiff.render).map Text.dropCr := by
  unfold render
  rw [String.toList_ofList, Text.lines_unlines notMem_render]

/-! ### The counts -/

/-- A line that is counted as added. -/
def countsAdded (line : Line) : Bool := !isDiffHeader line && Text.startsWithList "+" line

/-- A line that is counted as removed. -/
def countsRemoved (line : Line) : Bool :=
  !isDiffHeader line && !Text.startsWithList "+" line && Text.startsWithList "-" line

theorem foldl_diffStep_body {body : List Line}
    (h : ∀ line ∈ body, ¬ "diff --git ".toList <+: line) (files : List FileCount)
    (file : FileCount) :
    body.foldl diffStep { files := files, cur := some file } =
      { files := files
        cur := some
          { path := file.path
            added := file.added + body.countP countsAdded
            removed := file.removed + body.countP countsRemoved } } := by
  induction body generalizing file with
  | nil => rfl
  | cons line body ih =>
    obtain ⟨hline, hbody⟩ := List.forall_mem_cons.1 h
    have hstep : diffStep { files := files, cur := some file } line =
        { files := files
          cur := some
            { path := file.path
              added := file.added + if countsAdded line then 1 else 0
              removed := file.removed + if countsRemoved line then 1 else 0 } } := by
      unfold diffStep countsAdded countsRemoved
      rw [Text.stripPrefixList_eq_none_iff.2 hline]
      cases isDiffHeader line <;> cases Text.startsWithList "+" line <;>
        cases Text.startsWithList "-" line <;> rfl
    rw [List.foldl_cons, hstep, ih hbody, List.countP_cons, List.countP_cons]
    simp only [Nat.add_right_comm _ (ite _ _ _), Nat.add_assoc]

theorem countsAdded_dropCr (line : Line) :
    countsAdded (Text.dropCr line) = countsAdded line ∧
      countsRemoved (Text.dropCr line) = countsRemoved line := by
  have h {p : String} (hp : '\r' ∉ p.toList) :
      Text.startsWithList p (Text.dropCr line) = Text.startsWithList p line := by
    rw [Bool.eq_iff_iff, Text.startsWithList_iff, Text.startsWithList_iff,
      Text.prefix_dropCr_iff hp]
  unfold countsAdded countsRemoved isDiffHeader
  rw [h (by decide), h (by decide), h (by decide), h (by decide), h (by decide), h (by decide)]
  exact ⟨rfl, rfl⟩

theorem countsAdded_render (line : DiffLine) :
    countsAdded line.render = (line.isAdded && !line.looksLikeHeader) ∧
      countsRemoved line.render = (line.isRemoved && !line.looksLikeHeader) := by
  have hcons (p : String) (c : Char) (text : Line) (rest : String)
      (hp : p.toList = c :: rest.toList) :
      Text.startsWithList p (c :: text) = Text.startsWithList rest text := by
    rw [Bool.eq_iff_iff, Text.startsWithList_iff, Text.startsWithList_iff, hp,
      List.cons_prefix_cons]
    exact and_iff_right rfl
  have hempty (text : Line) : Text.startsWithList "" text = true := rfl
  cases line with
  | context text => exact ⟨rfl, rfl⟩
  | blank => exact ⟨rfl, rfl⟩
  | noNewline text => exact ⟨rfl, rfl⟩
  | added text =>
    unfold countsAdded countsRemoved isDiffHeader DiffLine.render DiffLine.looksLikeHeader
    dsimp only
    rw [hcons "+++" '+' text.1 "++" rfl, hcons "+" '+' text.1 "" rfl, hempty]
    cases Text.startsWithList "++" text.1 <;> exact ⟨rfl, rfl⟩
  | removed text =>
    unfold countsAdded countsRemoved isDiffHeader DiffLine.render DiffLine.looksLikeHeader
    dsimp only
    rw [hcons "---" '-' text.1 "--" rfl, hcons "-" '-' text.1 "" rfl, hempty]
    cases Text.startsWithList "--" text.1 <;> exact ⟨rfl, rfl⟩

theorem headers_silent {file : FileDiff} {line : Line} (h : line ∈ file.headers) :
    countsAdded line = false ∧ countsRemoved line = false ∧
      ¬ "diff --git ".toList <+: line := by
  unfold FileDiff.headers at h
  rcases List.mem_append.1 h with hext | hpaths
  · obtain ⟨⟨header, text⟩, -, rfl⟩ := List.mem_map.1 hext
    cases header <;> exact ⟨rfl, rfl, by simp [Extended.keyword]⟩
  · cases hp : file.paths with
    | none =>
      rw [hp] at hpaths
      cases hpaths
    | some paths =>
      rw [hp] at hpaths
      rcases List.mem_pair.1 hpaths with rfl | rfl <;> exact ⟨rfl, rfl, by simp⟩

theorem body_no_file {file : FileDiff} :
    ∀ line ∈ file.body.map Text.dropCr, ¬ "diff --git ".toList <+: line := by
  intro line hline
  obtain ⟨line, hbody, rfl⟩ := List.mem_map.1 hline
  rw [Text.prefix_dropCr_iff (by decide)]
  unfold FileDiff.body at hbody
  rcases List.mem_append.1 hbody with hheader | hhunks
  · exact (headers_silent hheader).2.2
  · obtain ⟨hunk, -, hhunk⟩ := List.mem_flatMap.1 hhunks
    rcases List.mem_cons.1 hhunk with rfl | hlines
    · simp
    · obtain ⟨dl, -, rfl⟩ := List.mem_map.1 hlines
      cases dl <;> simp [DiffLine.render]

theorem countP_body {p : Line → Bool} {q : DiffLine → Bool} (file : FileDiff)
    (hdrop : ∀ line, p (Text.dropCr line) = p line)
    (hheaders : ∀ line ∈ file.headers, p line = false)
    (hrange : ∀ range : Line, p ("@@ ".toList ++ range) = false)
    (hcontent : ∀ line : DiffLine, p line.render = q line) :
    (file.body.map Text.dropCr).countP p = file.content.countP q := by
  have hhunk (hunk : Hunk) : hunk.render.countP p = hunk.lines.countP q := by
    unfold Hunk.render
    rw [List.countP_cons_of_neg (by rw [hrange]; exact Bool.false_ne_true), List.countP_map]
    exact List.countP_congr fun line _ => by rw [Function.comp_apply, hcontent]
  rw [List.countP_map, show p ∘ Text.dropCr = p from funext hdrop, FileDiff.body,
    List.countP_append, List.countP_eq_zero.2 fun line h => by simp [hheaders line h],
    Nat.zero_add, FileDiff.content, List.countP_flatMap, List.countP_flatMap]
  exact congrArg List.sum (List.map_congr_left fun hunk _ => hhunk hunk)

/-- What the code counts in a file. -/
def FileDiff.counted (file : FileDiff) : FileCount where
  path := diffPath (Text.dropCr file.names.1)
  added := file.content.countP fun line => line.isAdded && !line.looksLikeHeader
  removed := file.content.countP fun line => line.isRemoved && !line.looksLikeHeader

theorem foldl_diffStep_file (s : DiffState) (file : FileDiff) :
    (file.render.map Text.dropCr).foldl diffStep s =
      { files := s.close, cur := some file.counted } := by
  have hfirst : diffStep s (Text.dropCr ("diff --git ".toList ++ file.names.1)) =
      { files := s.close, cur := some ⟨diffPath (Text.dropCr file.names.1), 0, 0⟩ } := by
    unfold diffStep
    rw [Text.dropCr_append (by decide), Text.stripPrefixList_append_self]
  unfold FileDiff.render
  rw [List.map_cons, List.foldl_cons, hfirst, foldl_diffStep_body body_no_file,
    countP_body file (fun line => (countsAdded_dropCr line).1)
      (fun line h => (headers_silent h).1) (fun _ => rfl) fun line => (countsAdded_render line).1,
    countP_body file (fun line => (countsAdded_dropCr line).2)
      (fun line h => (headers_silent h).2.1) (fun _ => rfl)
      fun line => (countsAdded_render line).2]
  unfold FileDiff.counted
  rw [Nat.zero_add, Nat.zero_add]

theorem close_foldl_files (s : DiffState) (files : List FileDiff) :
    (((files.flatMap FileDiff.render).map Text.dropCr).foldl diffStep s).close =
      s.close ++ files.map FileDiff.counted := by
  induction files generalizing s with
  | nil => exact (List.append_nil _).symm
  | cons file files ih =>
    rw [List.flatMap_cons, List.map_append, List.foldl_append, foldl_diffStep_file, ih,
      List.map_cons]
    unfold DiffState.close
    rw [Option.toList_some, List.append_assoc, List.singleton_append]

theorem diffCounts_render (files : List FileDiff) :
    diffCounts (render files) = files.map FileDiff.counted := by
  unfold diffCounts
  rw [lines_render, close_foldl_files]
  rfl

theorem report_append_inj {file file' : FileCount} {rest rest' : List Char}
    (hpath : file.path = file'.path) (hrest : rest.head?.all (!Char.isDigit ·) = true)
    (hrest' : rest'.head?.all (!Char.isDigit ·) = true)
    (h : file.report.toList ++ rest = file'.report.toList ++ rest') :
    file = file' ∧ rest = rest' := by
  obtain ⟨path, added, removed⟩ := file
  obtain ⟨path', added', removed'⟩ := file'
  dsimp only at hpath
  subst hpath
  unfold FileCount.report at h
  simp only [String.toList_append, List.append_assoc] at h
  obtain ⟨hadded, h⟩ := Text.toString_append_inj rfl rfl
    (List.append_cancel_left (List.append_cancel_left (List.append_cancel_left h)))
  obtain ⟨hremoved, h⟩ := Text.toString_append_inj hrest hrest' (List.append_cancel_left h)
  exact ⟨by rw [hadded, hremoved], h⟩

theorem join_cons (s : String) (l : List String) : String.join (s :: l) = s ++ String.join l := by
  simp

theorem head?_join_reports (files : List FileCount) :
    (String.join (files.map FileCount.report)).toList.head?.all (!Char.isDigit ·) = true := by
  cases files with
  | nil => rfl
  | cons file files =>
    rw [List.map_cons, join_cons]
    unfold FileCount.report
    simp only [String.toList_append, List.append_assoc]
    rfl

theorem join_reports_inj {files files' : List FileCount}
    (hpaths : files.map FileCount.path = files'.map FileCount.path)
    (h : String.join (files.map FileCount.report) = String.join (files'.map FileCount.report)) :
    files = files' := by
  induction files generalizing files' with
  | nil => exact (List.map_eq_nil_iff.1 hpaths.symm).symm
  | cons file files ih =>
    cases files' with
    | nil => cases hpaths
    | cons file' files' =>
      rw [List.map_cons, List.map_cons, List.cons.injEq] at hpaths
      rw [List.map_cons, List.map_cons, join_cons, join_cons] at h
      have hlist := congrArg String.toList h
      rw [String.toList_append, String.toList_append] at hlist
      obtain ⟨hfile, hrest⟩ := report_append_inj hpaths.1 (head?_join_reports files)
        (head?_join_reports files') hlist
      rw [hfile, ih hpaths.2 (String.toList_injective hrest)]

theorem counted_eq_count_iff (file : FileDiff) :
    file.counted = file.count ↔ ∀ line ∈ file.content, line.looksLikeHeader = false := by
  have hkind {p : DiffLine → Bool} :
      (file.content.countP fun line => p line && !line.looksLikeHeader) = file.content.countP p ↔
        ∀ line ∈ file.content, p line = true → line.looksLikeHeader = false := by
    have hsplit := List.countP_eq_countP_filter_add file.content p DiffLine.looksLikeHeader
    rw [List.countP_filter, List.countP_filter] at hsplit
    rw [hsplit]
    constructor
    · intro h line hline hp
      have hzero : file.content.countP (fun a => p a && a.looksLikeHeader) = 0 := by
        simpa using h
      have := List.countP_eq_zero.1 hzero line hline
      rw [hp, Bool.true_and, Bool.not_eq_true] at this
      exact this
    · intro h
      have hzero : file.content.countP (fun a => p a && a.looksLikeHeader) = 0 := by
        refine List.countP_eq_zero.2 fun line hline => ?_
        cases hp : p line with
        | false => exact Bool.false_ne_true
        | true =>
          rw [h line hline hp]
          exact Bool.false_ne_true
      simpa using hzero
  unfold FileDiff.counted FileDiff.count
  rw [FileCount.mk.injEq, hkind, hkind]
  constructor
  · rintro ⟨-, hadded, hremoved⟩ line hline
    cases line with
    | added text => exact hadded _ hline rfl
    | removed text => exact hremoved _ hline rfl
    | context | blank | noNewline => rfl
  · intro h
    exact ⟨rfl, fun line hline _ => h line hline, fun line hline _ => h line hline⟩

/-- The summary of a diff is right exactly when, in no file, an added line has a text that begins
with `++` or a removed line one that begins with `--`: such a line is taken for a header. -/
theorem filterGitDiff_eq_summary_iff (files : List FileDiff) :
    filterGitDiff (render files) = summary files ↔
      ∀ file ∈ files, ∀ hunk ∈ file.hunks, ∀ line ∈ hunk.lines,
        line.looksLikeHeader = false := by
  have hcond : (∀ file ∈ files, ∀ hunk ∈ file.hunks, ∀ line ∈ hunk.lines,
      line.looksLikeHeader = false) ↔ files.map FileDiff.counted = files.map FileDiff.count := by
    rw [List.map_inj_left]
    refine forall₂_congr fun file _ => ?_
    rw [counted_eq_count_iff]
    simp only [FileDiff.content, List.mem_flatMap, forall_exists_index, and_imp]
    exact ⟨fun h line hunk hhunk hline => h hunk hhunk line hline,
      fun h hunk hhunk line hline => h line hunk hhunk hline⟩
  rw [hcond]
  cases files with
  | nil => exact iff_of_true rfl rfl
  | cons file files =>
    have hcode : filterGitDiff (render (file :: files)) = "[git diff summary]" ++
        String.join (((file :: files).map FileDiff.counted).map FileCount.report) := by
      unfold filterGitDiff
      rw [diffCounts_render]
      rfl
    have hsummary : summary (file :: files) = "[git diff summary]" ++
        String.join (((file :: files).map FileDiff.count).map FileCount.report) := by
      rw [List.map_map]
      rfl
    have hpaths : ((file :: files).map FileDiff.counted).map FileCount.path =
        ((file :: files).map FileDiff.count).map FileCount.path := by
      rw [List.map_map, List.map_map]
      rfl
    rw [hcode, hsummary]
    constructor
    · intro h
      have hlist := congrArg String.toList h
      rw [String.toList_append, String.toList_append] at hlist
      exact join_reports_inj hpaths (String.toList_injective (List.append_cancel_left hlist))
    · intro h
      rw [h]

/-- A diff that adds the line `++i;` to a file. -/
def incrementDiff : FileDiff where
  names := ⟨"a/x.c b/x.c".toList, by decide⟩
  extended := [(.index, ⟨"1111111..2222222 100644".toList, by decide⟩)]
  paths := some (⟨"a/x.c".toList, by decide⟩, ⟨"b/x.c".toList, by decide⟩)
  hunks :=
    [{ range := ⟨"-1 +1,2 @@".toList, by decide⟩
       lines := [.context ⟨"int i;".toList, by decide⟩, .added ⟨"++i;".toList, by decide⟩] }]

/-- It is summarized as a diff that adds nothing. -/
theorem filterGitDiff_hides_increment :
    summary [incrementDiff] = "[git diff summary]\n  x.c: +1 -0" ∧
      filterGitDiff (render [incrementDiff]) = "[git diff summary]\n  x.c: +0 -0" := by
  decide +kernel

end Compress

end Switchback
