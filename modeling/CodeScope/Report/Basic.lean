import CodeScope.Json.Listing

/-!
# Reports

A report on a compiled module: its header, its listing and, where they are asked for, the tables of
its top-level unit. All parts are computed before any of them is shown, so a report is complete or
an error.
-/

namespace CodeScope

/-- What a report contains. -/
structure ReportOptions where
  /-- What the listing shows. -/
  listing : ListingOptions
  /-- Whether the source positions are part of the report. -/
  positions : Bool
  /-- Whether the exception handlers are part of the report. -/
  handlers : Bool
  deriving DecidableEq, Repr

/-- A report on a compiled module. -/
structure Report where
  /-- The module. -/
  image : Image
  /-- Its listing. -/
  listing : Listing
  /-- Source positions of its top-level unit. -/
  positions : Option (List Position)
  /-- Exception handlers of its top-level unit. -/
  handlers : Option (List Handler)

namespace Report

/-- The source positions of a code unit, if they are wanted. -/
def positionsOf (unit : CodeUnit) (wanted : Bool) : Except Error (Option (List Position)) :=
  if wanted then do
    let table ← PositionTable.ofUnit unit
    return some (← table.positions)
  else
    .ok none

/-- The exception handlers of a code unit, if they are wanted. -/
def handlersOf (unit : CodeUnit) (wanted : Bool) : Except Error (Option (List Handler)) :=
  if wanted then do
    let cursor ← Handler.ofUnit unit
    return some (← cursor.readAll)
  else
    .ok none

/-- The report on a module whose listing is known, with the tables that are wanted. -/
def ofListing (image : Image) (listing : Listing) (positions handlers : Bool) :
    Except Error Report := do
  let positions ← positionsOf image.code positions
  let handlers ← handlersOf image.code handlers
  return { image, listing, positions, handlers }

/-- The report on a module. -/
def ofImage (image : Image) (options : ReportOptions) : Except Error Report := do
  let listing ← image.code.listing options.listing
  ofListing image listing options.positions options.handlers

/-- A member of a document that may be absent. -/
def member {α : Type} (name : String) (toJson : α → Json) :
    Option (List α) → List (String × Json)
  | some items => [(name, .array (items.map toJson))]
  | none => []

/-- A report on a module with a name as a document. -/
def toJson (report : Report) (name : String) : Json :=
  .object (
    [("file", .text name), ("header", report.image.header.toJson),
      ("disassembly", report.listing.toJson)] ++
    member "positions" Position.toJson report.positions ++
    member "exceptions" Handler.toJson report.handlers)

end Report
end CodeScope
