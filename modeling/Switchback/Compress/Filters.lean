import Switchback.Core.Ir
import Switchback.Lib.Lines
import Switchback.Lib.Utf8

/-!
# The filters of the tool-result compressor

The filter that summarises a git diff; the other filters are known by what they return.
-/

namespace Switchback

namespace Compress

open Lib

abbrev Line := List Char

/-! ### Git diffs -/

/-- What is known of a file of a diff: its path, the added and the removed lines. -/
structure FileCount where
  path : String
  added : ℕ
  removed : ℕ

/-- The files that are done, and the current one. -/
structure DiffState where
  files : List FileCount
  cur : Option FileCount

def DiffState.close (s : DiffState) : List FileCount := s.files ++ s.cur.toList

/-- The path of a file, of what follows `diff --git`. -/
def diffPath (rest : Line) : String :=
  String.ofList (Text.trimStartMatches "a/" ((Text.splitWhitespace rest).headD ['?']))

def isDiffHeader (line : Line) : Bool :=
  Text.startsWithList "+++" line || Text.startsWithList "---" line ||
    Text.startsWithList "@@" line || Text.startsWithList "index " line

def diffStep (s : DiffState) (line : Line) : DiffState :=
  match Text.stripPrefixList "diff --git ".toList line with
  | some rest => { files := s.close, cur := some ⟨diffPath rest, 0, 0⟩ }
  | none =>
      -- the headers of a file or a hunk are never counted as content
      if isDiffHeader line then s
      else
        match s.cur with
        | none => s
        | some file =>
            if Text.startsWithList "+" line then
              { s with cur := some { file with added := file.added + 1 } }
            else if Text.startsWithList "-" line then
              { s with cur := some { file with removed := file.removed + 1 } }
            else s

def FileCount.report (file : FileCount) : String :=
  s!"\n  {file.path}: +{file.added} -{file.removed}"

/-- The files of a text with their counts. -/
def diffCounts (text : String) : List FileCount :=
  ((Text.lines text.toList).foldl diffStep { files := [], cur := none }).close

def filterGitDiff (text : String) : String :=
  match diffCounts text with
  | [] => text
  | files => "[git diff summary]" ++ String.join (files.map FileCount.report)

/-- A filter; `none` is a panic. -/
abbrev Filter := String → Option String

end Compress

end Switchback
