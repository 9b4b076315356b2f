import CodeScope.Handler
import CodeScope.Image.Basic
import CodeScope.Listing.Text

/-!
# Text reports

The parts of a report on a compiled module as text. Every line ends with a line feed, except the
summary, which is one line without it.
-/

namespace CodeScope

/-- How a header tells that the source has changed. -/
def Invalidation.describe : Invalidation → String
  | .timestamp mtime sourceSize =>
      let mtime := mtime.toNat
      let sourceSize := sourceSize.toNat
      s!"timestamp-based: mtime={mtime}, source size={sourceSize}"
  | .hash checkSource digest =>
      let digest := Hex.bytes digest
      let check := if checkSource then "true" else "false"
      s!"hash-based: {digest} (check_source={check})"

/-- The header of a module with a name. -/
def Header.describe (header : Header) (name : String) : String :=
  let magic := header.magic.toNat
  let flags := Hex.numeral header.flags.toNat
  unlines [
    s!"== {name} ==",
    s!"python {header.version.text} (magic {magic}), flags 0x{flags}",
    header.invalidation.describe]

namespace CodeUnit

/-- One constant with its number. -/
def describeConst (value : Value) (index : Nat) : String :=
  let number := Columns.right 3 (toString index)
  "  [" ++ number ++ "] " ++ value.repr

/-- A table of names under a label; nothing if it is empty. -/
def describeNames (label : String) (names : List String) : List String :=
  if names.isEmpty then [] else [label ++ ": " ++ String.intercalate ", " names]

/-- The constants and the names of a code unit. -/
def describeConsts (unit : CodeUnit) : String :=
  let size := unit.consts.length
  unlines (
    s!"consts ({size}):" ::
    unit.consts.mapIdx (fun index value => describeConst value index) ++
    describeNames "names" unit.names ++
    describeNames "varnames" unit.locals.varnames ++
    describeNames "cellvars" unit.locals.cellvars ++
    describeNames "freevars" unit.locals.freevars)

end CodeUnit

namespace Position

/-- Five columns with a blank between them. -/
def row (offset line endLine column endColumn : String) : String :=
  String.intercalate " " [Columns.right 6 offset, Columns.right 6 line, Columns.right 6 endLine,
    Columns.right 5 column, Columns.right 5 endColumn]

/-- One position. -/
def describe (position : Position) : String :=
  let span := position.span
  row (toString position.offset) (toString span.line) (toString span.endLine)
    (toString span.column) (toString span.endColumn)

/-- Positions under their headings. -/
def describeAll (positions : List Position) : String :=
  unlines (row "offset" "line" "end" "col" "end" :: positions.map describe)

end Position

namespace Handler

/-- One protected range. -/
def describe (handler : Handler) : String :=
  let lasti := if handler.lasti then " lasti" else ""
  let range := s!"  {handler.start} to {handler.stop} -> {handler.target}"
  range ++ s!" [{handler.depth}]" ++ lasti

/-- Protected ranges, or a line that says that there are none. -/
def describeAll (handlers : List Handler) : String :=
  if handlers.isEmpty then "no exception table\n" else unlines (handlers.map describe)

end Handler

/-- One line about a module with a name and its listing. -/
def Image.summary (image : Image) (name : String) (listing : Listing) : String :=
  let version := image.header.version.text
  let units := image.code.count
  let lines := listing.size
  let consts := image.code.consts.length
  s!"{name}: python {version}, {units} code unit(s), {lines} opcodes, {consts} top-level consts"

end CodeScope
