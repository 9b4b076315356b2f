import CodeScope.Listing.Text
import CodeScope.Proofs.Listing.Lines
import CodeScope.Proofs.Listing.Visits
import CodeScope.Proofs.Value.Lines
import CodeScope.Proofs.Version.Profile
import Mathlib.Data.String.Defs

/-!
# The layout of listings

The text of a listing has a heading for every node and a line for every instruction of it, and a
blank line between nodes. A heading shows the name and the first line of a unit. The line of an
instruction shows the line of its source, its offset and its mnemonic and, if it has an argument,
the argument and what it stands for. Whatever values the constants are, an instruction takes one
line: only the names of code units and of variables could break it.
-/

namespace CodeScope

/-- What is shown behind the number of an argument for the operand that it stands for. -/
inductive Operand.Written : Option Operand → String → Prop
  | absent : Written none ""
  | const (value : Value) : Written (some (.const value)) (" (" ++ value.repr ++ ")")
  | name (name : String) : Written (some (.name name)) (" (" ++ name ++ ")")
  | localVar (name : String) : Written (some (.localVar name)) (" (" ++ name ++ ")")
  | freeVar (name : String) : Written (some (.freeVar name)) (" (" ++ name ++ ")")
  | target (offset : Nat) : Written (some (.target offset)) (" (to " ++ toString offset ++ ")")
  | number (value : UInt32) : Written (some (.number value)) ""
  | unknown : Written (some .unknown) " (<unknown>)"

/-- What a line shows, in columns of 5, 6, 2, 30 and 5 characters and one of any width. -/
inductive ListingLine.Written (line : ListingLine) : String → Prop
  | bare (without : line.instruction.argument = none) :
      Written line ((toString line.span.line).leftpad 5 ++
        (toString line.instruction.start).leftpad 6 ++ "  " ++ line.opcode.name)
  | argued {argument : UInt32} {shown : String}
      (has : line.instruction.argument = some argument)
      (written : Operand.Written line.operand shown) :
      Written line ((toString line.span.line).leftpad 5 ++
        (toString line.instruction.start).leftpad 6 ++ "  " ++ line.opcode.name.rightpad 30 ++
        (toString argument.toNat).leftpad 5 ++ shown)

/-- The lines of a node: its heading, and then its instructions in order. -/
inductive Listing.Written (node : Listing) : List String → Prop
  | block {texts : List String} (lines : List.Forall₂ ListingLine.Written node.lines texts) :
      Written node (("Disassembly of <code:" ++ node.name ++ "> (line " ++
        toString node.firstLine.toInt ++ "):") :: texts)

/-- Lists whose items belong together if the second ones are functions of the first ones. -/
theorem forall₂_iff_eq_map {α β : Type} {related : α → β → Prop} {image : α → β}
    (functional : ∀ item result, related item result ↔ result = image item)
    {items : List α} {results : List β} :
    List.Forall₂ related items results ↔ results = items.map image := by
  have same : related = fun item result => image item = result := by
    funext item result
    exact propext ((functional item result).trans eq_comm)
  rw [same, ← List.forall₂_map_left_iff, List.forall₂_eq_eq_eq, eq_comm]

theorem Columns.right_eq_leftpad (width : Nat) (text : String) :
    Columns.right width text = text.leftpad width := by
  have padded : text.leftpad width =
      String.ofList (List.replicate (width - text.toList.length) ' ' ++ text.toList) := rfl
  rw [padded, String.ofList_append, String.ofList_toList, String.length_toList]
  rfl

theorem Operand.written_iff {operand : Option Operand} {shown : String} :
    Operand.Written operand shown ↔ shown = (operand.map Operand.text).getD "" := by
  constructor
  · intro written
    cases written <;> rfl
  · rintro rfl
    cases operand with
    | none => exact .absent
    | some operand =>
        cases operand with
        | const value => exact .const value
        | name name => exact .name name
        | localVar name => exact .localVar name
        | freeVar name => exact .freeVar name
        | target offset => exact .target offset
        | number value => exact .number value
        | unknown => exact .unknown

theorem ListingLine.written_iff {line : ListingLine} {text : String} :
    line.Written text ↔ text = line.text := by
  simp only [ListingLine.text, Columns.right_eq_leftpad]
  constructor
  · intro written
    cases written with
    | bare without => rw [without]
    | argued has written =>
        rw [has, Operand.written_iff.mp written]
        rfl
  · rintro rfl
    cases has : line.instruction.argument with
    | none => exact .bare has
    | some argument => exact .argued has (Operand.written_iff.mpr rfl)

/-- The mnemonics of all versions are on one line. -/
theorem Profile.unbroken_name {profile : Profile} {code : UInt8} {opcode : Opcode}
    (member : profile ∈ Profile.all) (known : profile.opcodes.find? code = some opcode) :
    Unbroken opcode.name := by
  have each : ∀ profile ∈ Profile.all, ∀ opcode ∈ profile.opcodes.opcodes,
      (10 : UInt8) ∉ opcode.name.toByteArray.data.toList := by
    decide +kernel
  exact unbroken_of_bytes (each profile member opcode (List.mem_of_find?_eq_some known))

namespace Locals

/-- The names in all variable tables. -/
def allNames : Locals → List String
  | split varnames cellvars freevars => varnames ++ cellvars ++ freevars
  | unified names _ => names

variable {locals : Locals} {index : Nat} {name : String}

theorem mem_allNames_of_local? (found : locals.local? index = some name) :
    name ∈ locals.allNames := by
  cases locals with
  | split varnames cellvars freevars =>
      exact List.mem_append_left _ (List.mem_append_left _ (List.mem_of_getElem? found))
  | unified names kinds => exact List.mem_of_getElem? found

theorem mem_allNames_of_free? (found : locals.free? index = some name) :
    name ∈ locals.allNames := by
  cases locals with
  | split varnames cellvars freevars =>
      rw [allNames, List.append_assoc]
      exact List.mem_append_right _ (List.mem_of_getElem? found)
  | unified names kinds => exact List.mem_of_getElem? found

end Locals

/--
A code unit whose tables hold names on one line. So are its own name and those of all code units
inside its constants.
-/
structure CodeUnit.Plain (unit : CodeUnit) : Prop where
  displayName : Unbroken unit.displayName
  names : ∀ name ∈ unit.names, Unbroken name
  locals : ∀ name ∈ unit.locals.allNames, Unbroken name
  consts : ∀ value ∈ unit.consts, value.NamesUnbroken

namespace CodeUnit.Plain

variable {unit : CodeUnit} {profile : Profile}

/-- What an argument stands for is shown on one line. -/
theorem operand (plain : unit.Plain) (opcode : Opcode) (stop : Nat) (argument : UInt32) :
    Unbroken (Operand.resolve profile unit opcode stop argument).text := by
  have parenthesised : ∀ {text : String}, Unbroken text → Unbroken (" (" ++ text ++ ")") :=
    fun unbroken => ((show Unbroken " (" by decide).append unbroken).append (by decide)
  have target : ∀ offset : Nat, Unbroken (Operand.target offset).text := fun offset =>
    ((show Unbroken " (to " by decide).append (.nat offset)).append (by decide)
  have found : ∀ {α : Type} {entry : Option α} {operand : α → Operand},
      (∀ value ∈ entry, Unbroken (operand value).text) →
        Unbroken ((entry.map operand).getD .unknown).text := by
    intro α entry operand each
    cases entry with
    | none => exact (show Unbroken " (<unknown>)" by decide)
    | some value => exact each value rfl
  rw [Operand.resolve]
  split
  · exact found fun value known =>
      parenthesised (plain.consts value (List.mem_of_getElem? known)).repr
  · exact found fun name known => parenthesised (plain.names name (List.mem_of_getElem? known))
  · exact found fun name known =>
      parenthesised (plain.locals name (Locals.mem_allNames_of_local? known))
  · exact found fun name known =>
      parenthesised (plain.locals name (Locals.mem_allNames_of_free? known))
  · cases profile.jumpRule with
    | bytes => exact target _
    | words =>
        simp only [Operand.relativeTarget]
        split <;> exact target _
    | absoluteWords => exact .empty
  · cases profile.jumpRule <;> exact target _
  · exact .empty

/-- An instruction takes one line. -/
theorem line (plain : unit.Plain) {table : PositionTable} {instruction : Instruction}
    {line : ListingLine} (known : profile ∈ Profile.all)
    (shows : unit.Shows profile table instruction line) : Unbroken line.text := by
  have mnemonic := Profile.unbroken_name known shows.known
  have columns : ∀ offset : Nat, Unbroken (Columns.right 5 (toString line.span.line) ++
      Columns.right 6 (toString offset) ++ "  ") := fun offset =>
    ((Unbroken.right 5 (.int _)).append (.right 6 (.nat offset))).append (by decide)
  rw [ListingLine.text]
  simp only [shows.operand, shows.own]
  cases instruction.argument with
  | none => exact (columns instruction.start).append mnemonic
  | some argument =>
      have number := Unbroken.right 5 (.nat argument.toNat)
      exact (((columns instruction.start).append (.left 30 mnemonic)).append number).append
        (plain.operand line.opcode instruction.stop argument)

theorem heading (plain : unit.Plain) :
    Unbroken (Listing.heading unit.displayName unit.firstLine) :=
  ((((show Unbroken "Disassembly of <code:" by decide).append plain.displayName).append
    (show Unbroken "> (line " by decide)).append (.int _)).append (by decide)

end CodeUnit.Plain

namespace Listing

/-- The lines of a node: its heading and its instructions. -/
def block (node : Listing) : List String :=
  heading node.name node.firstLine :: node.lines.map ListingLine.text

theorem written_iff {node : Listing} {block : List String} :
    node.Written block ↔ block = node.block := by
  have lines : ∀ texts, List.Forall₂ ListingLine.Written node.lines texts ↔
      texts = node.lines.map ListingLine.text := by
    intro texts
    apply forall₂_iff_eq_map
    exact fun line text => ListingLine.written_iff
  constructor
  · intro written
    cases written with
    | block written => exact congrArg _ ((lines _).mp written)
  · rintro rfl
    exact .block ((lines _).mpr rfl)

theorem forall₂_written_iff {nodes : List Listing} {blocks : List (List String)} :
    List.Forall₂ Written nodes blocks ↔ blocks = nodes.map block := by
  apply forall₂_iff_eq_map
  exact fun node block => written_iff

mutual

/-- If there were a blank line before the first node too, there would be one before each. -/
theorem blank_cons_textLines : ∀ tree : Listing,
    "" :: tree.textLines = tree.nodes.flatMap fun node => "" :: node.block
  | node name firstLine lines children => by
      rw [textLines, nodes, List.flatMap_cons, childLines_eq_flatMap children]
      rfl

theorem childLines_eq_flatMap : ∀ listings : List Listing,
    childLines listings = (nodesAll listings).flatMap fun node => "" :: node.block
  | [] => rfl
  | listing :: rest => by
      rw [childLines, nodesAll, List.flatMap_append, ← blank_cons_textLines listing,
        childLines_eq_flatMap rest]

end

/-- Nodes have two lines more than instructions, and the first one has no blank line before it. -/
theorem length_textLines (tree : Listing) :
    tree.textLines.length + 1 = tree.size + 2 * tree.nodes.length := by
  have whole := congrArg List.length (blank_cons_textLines tree)
  rw [List.length_cons, List.length_flatMap] at whole
  rw [whole, size_eq_sum]
  clear whole
  induction tree.nodes with
  | nil => rfl
  | cons node nodes induction =>
      have own : ("" :: node.block).length = node.lines.length + 2 := by
        rw [List.length_cons, block, List.length_cons, List.length_map]
      rw [List.map_cons, List.sum_cons, own, induction, List.map_cons, List.sum_cons,
        List.length_cons]
      omega

theorem textLines_eq_intercalate (tree : Listing) :
    tree.textLines = [""].intercalate (tree.nodes.map block) := by
  have blank := blank_cons_textLines tree
  rw [nodes_eq, List.flatMap_cons, List.cons_append, List.cons_inj_right] at blank
  rw [blank, nodes_eq, List.map_cons]
  generalize tree.children.flatMap nodes = nodes
  generalize tree.block = block
  induction nodes generalizing block with
  | nil => simp
  | cons node nodes induction =>
      rw [List.map_cons, List.intercalate_cons_cons, ← induction, List.flatMap_cons]
      simp

end Listing

namespace CodeUnit

variable {unit : CodeUnit} {options : ListingOptions} {tree : Listing}

/-- The lines of a unit that is listed are on one line each. -/
theorem Plain.block (plain : unit.Plain) (listed : unit.listing options = .ok tree) :
    ∀ line ∈ tree.block, Unbroken line := by
  have listedAs := listing_eq_ok_iff.mp listed
  have lines := listedAs.lines
  obtain ⟨profile, table, supported, decoder⟩ := exists_table_of_lines lines
  have known := (Profile.ofVersion_eq_ok_iff.mp supported).1
  rw [lines_eq_mapM supported decoder] at lines
  rw [Listing.block, listedAs.name, listedAs.firstLine]
  refine List.forall_mem_cons.mpr ⟨plain.heading, List.forall_mem_map.mpr ?_⟩
  exact forall_of_mapM lines fun instruction member line alone =>
    plain.line known (lineAlone_eq_ok_iff.mp alone)

/--
The text of a listing splits into the lines of its nodes, a heading and a line for every
instruction, with a blank line between nodes, and ends with a line feed.
-/
theorem splitOn_text_of_listing (listed : unit.listing options = .ok tree)
    (plain : ∀ visited ∈ unit.visits options, visited.Plain) :
    ∃ blocks : List (List String), List.Forall₂ Listing.Written tree.nodes blocks ∧
      tree.text.toList.splitOn '\n' = ([""].intercalate blocks).map String.toList ++ [[]] ∧
      ([""].intercalate blocks).length = tree.size + 2 * tree.nodes.length - 1 := by
  refine ⟨_, Listing.forall₂_written_iff.mpr rfl, ?_, ?_⟩
  · rw [← tree.textLines_eq_intercalate]
    refine splitOn_unlines ?_
    have blocks : ∀ node ∈ tree.nodes, ∀ line ∈ node.block, Unbroken line :=
      forall_of_mapM (mapM_eq_ok_iff.mpr (forall₂_visits_nodes unit listed))
        fun visited member node listedAlone => (plain visited member).block listedAlone
    have each : ∀ line ∈ "" :: tree.textLines, Unbroken line := by
      rw [Listing.blank_cons_textLines]
      intro line member
      obtain ⟨node, isNode, member⟩ := List.mem_flatMap.mp member
      exact List.forall_mem_cons.mpr ⟨.empty, blocks node isNode⟩ line member
    exact (List.forall_mem_cons.mp each).2
  · have counted := tree.length_textLines
    rw [← tree.textLines_eq_intercalate]
    omega

/-- A unit with a byte string that is a line feed. -/
def feedBytes : CodeUnit where
  site := 9
  version := ⟨3, 8⟩
  argcount := 0
  posonlyargcount := 0
  kwonlyargcount := 0
  nlocals := 0
  stacksize := 1
  flags := ⟨0⟩
  code := [100, 0, 83, 0]
  names := []
  locals := .split [] [] []
  filename := "t.py"
  name := "g"
  qualname := none
  firstLine := 2
  linetable := []
  exceptiontable := []
  consts := [.bytes [10]]

/-- A unit that loads a text with a line feed and another unit. -/
def feedText : CodeUnit :=
  { feedBytes with
    site := 0
    name := "f"
    code := [100, 0, 100, 1, 83, 0]
    consts := [.tuple [.text "a\nb" false], feedBytes.toValue] }

theorem plain_of_mem_visits_feedText :
    ∀ visited ∈ [feedText, feedBytes], visited.Plain := by
  have atom : ∀ value : Value, value.parts = [] → value.code? = none → value.NamesUnbroken := by
    intro value parts code
    refine .ofParts ?_ ?_
    · rw [code]
      exact fun _ => nofun
    · rw [parts]
      exact List.forall_mem_nil _
  have tuple : (Value.tuple [.text "a\nb" false]).NamesUnbroken :=
    .ofParts (fun _ => nofun) (List.forall_mem_singleton.mpr (atom _ rfl rfl))
  have bytes : ∀ value ∈ feedBytes.consts, value.NamesUnbroken :=
    List.forall_mem_singleton.mpr (atom _ rfl rfl)
  have inner : feedBytes.toValue.NamesUnbroken :=
    .ofParts (by rintro _ ⟨⟩; decide) bytes
  have empty : ∀ name ∈ ([] : List String), Unbroken name := List.forall_mem_nil _
  have outer : feedText.Plain :=
    ⟨by decide, empty, empty,
      List.forall_mem_cons.mpr ⟨tuple, List.forall_mem_singleton.mpr inner⟩⟩
  exact List.forall_mem_cons.mpr
    ⟨outer, List.forall_mem_singleton.mpr ⟨by decide, empty, empty, bytes⟩⟩

theorem splitOn_text_of_listing_feeds :
    ∃ tree, feedText.listing ⟨true, false⟩ = .ok tree ∧
      (∀ visited ∈ feedText.visits ⟨true, false⟩, visited.Plain) ∧
      tree.text.toList.splitOn '\n' = [
        "Disassembly of <code:f> (line 2):",
        "    2     0  LOAD_CONST                        0 (('a\\nb',))",
        "    2     2  LOAD_CONST                        1 (<code:g>)",
        "    2     4  RETURN_VALUE",
        "",
        "Disassembly of <code:g> (line 2):",
        "    2     0  LOAD_CONST                        0 (b'\\n')",
        "    2     2  RETURN_VALUE"].map String.toList ++ [[]] := by
  obtain ⟨outerLines, outer, loads, outerTexts⟩ : ∃ lines,
      feedText.lines ⟨true, false⟩ = .ok lines ∧ loadedBy lines = [feedBytes] ∧
        lines.map ListingLine.text = [
          "    2     0  LOAD_CONST                        0 (('a\\nb',))",
          "    2     2  LOAD_CONST                        1 (<code:g>)",
          "    2     4  RETURN_VALUE"] :=
    ⟨_, rfl, rfl, rfl⟩
  obtain ⟨innerLines, inner, loadsNone, innerTexts⟩ : ∃ lines,
      feedBytes.lines ⟨true, false⟩ = .ok lines ∧ loadedBy lines = [] ∧
        lines.map ListingLine.text = [
          "    2     0  LOAD_CONST                        0 (b'\\n')",
          "    2     2  RETURN_VALUE"] :=
    ⟨_, rfl, rfl, rfl⟩
  have called : feedText.called ⟨true, false⟩ = [feedBytes] := (called_of_lines outer).trans loads
  have calledNone : feedBytes.called ⟨true, false⟩ = [] := (called_of_lines inner).trans loadsNone
  have visits : feedText.visits ⟨true, false⟩ = [feedText, feedBytes] := by
    rw [visits_eq, called, List.flatMap_singleton, visits_eq, calledNone, List.flatMap_nil]
  have plain := visits ▸ plain_of_mem_visits_feedText
  have listedInner : feedBytes.listing ⟨true, false⟩ = .ok (.node "g" 2 innerLines []) :=
    listing_eq_ok_iff.mpr ⟨rfl, rfl, inner, calledNone ▸ .nil⟩
  have listed : feedText.listing ⟨true, false⟩ =
      .ok (.node "f" 2 outerLines [.node "g" 2 innerLines []]) :=
    listing_eq_ok_iff.mpr ⟨rfl, rfl, outer, called ▸ .cons listedInner .nil⟩
  obtain ⟨blocks, written, split, -⟩ := splitOn_text_of_listing listed plain
  refine ⟨_, listed, plain, ?_⟩
  rw [split, Listing.forall₂_written_iff.mp written]
  have outerHeading : Listing.heading "f" 2 = "Disassembly of <code:f> (line 2):" := rfl
  have innerHeading : Listing.heading "g" 2 = "Disassembly of <code:g> (line 2):" := rfl
  simp only [Listing.nodes, Listing.nodesAll, List.map_cons, List.map_nil, List.append_nil,
    Listing.block, Listing.name, Listing.firstLine, Listing.lines, outerTexts, innerTexts,
    outerHeading, innerHeading]
  rfl

end CodeUnit
end CodeScope
