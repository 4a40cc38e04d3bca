/-
Export files.

An export names the file after the time of the export and shows short contents to the user.
Whether the directory takes the file is known beforehand; writing it is left to the caller.
-/
import LambdaShell.Export.Format
import LambdaShell.Path

namespace LambdaShell

/-- Where exports go. -/
structure Destination where
  directory : String
  /-- The time of the export, as it appears in file names. -/
  stamp : String
  /-- Why the directory takes no files, if it takes none. -/
  refusal : Option String

/-- A file to be written. -/
structure ExportFile where
  path : String
  format : ExportFormat
  content : String

/-- What the user is told of an export. -/
structure Exported where
  path : String
  format : ExportFormat
  /-- The contents, if they are short enough to be shown. -/
  preview : Option String

/-- Contents are shown if they have fewer characters. -/
def previewLimit : Nat := 1000

/-- The file that holds the items. -/
def ExportFile.ofItems (dest : Destination) (format : ExportFormat) (items : List Value) :
    ExportFile :=
  ⟨Path.join dest.directory s!"export_{dest.stamp}.{format.extension}", format,
    format.render items⟩

/-- What the user is told of a file. -/
def ExportFile.exported (file : ExportFile) : Exported :=
  let isShown := file.format ≠ .text ∧ file.content.length < previewLimit
  ⟨file.path, file.format, if isShown then some file.content else none⟩

end LambdaShell
