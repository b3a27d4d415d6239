import Netsystem.Notation
import Netsystem.Api.BlockCrc

/-!
# What the CRC of a declaration is about

The text under `Block::crc` is a table of the fields, with the tables of the declared types behind
it. `declaration_iff`: for declarations without quotes in their names it tells the declaration,
but for what it leaves out (`Block.norm`). `file_crc`, `same_name` and `validate_services` are
about the inventory of a module: the text under its CRC tells the tables of its declarations
(`inventory_iff`).
-/

namespace Netsystem.Api

open Notation (Atom)

/-! ## Tables -/

/-- The length of an array and the field that holds it. -/
def lengthAtoms : Option Nat → Option String → List Atom
  | none, _ => []
  | some length, none => [.number length, .absent]
  | some length, some field => [.number length, .text field]

def Field.atoms (field : Field) : List Atom :=
  [.text field.typeName, .text field.name] ++ lengthAtoms field.length field.lengthField

def valueAtoms (value : String × Int) : List Atom := [.text value.1, .number value.2]

/-- The table that the text of one block prints. -/
def Block.rows : Block → List (List Atom)
  | .fields parts => parts.map Field.atoms
  | .enum values => values.map valueAtoms
  | .alias => []

mutual

/-- The tables of the blocks that a block refers to, each before those that it refers to
itself. -/
def Block.referenced : Block → List (List (List Atom))
  | .fields parts => referencedOf parts
  | .enum _ => []
  | .alias => []

def referencedOf : List Field → List (List (List Atom))
  | [] => []
  | .mk _ _ none _ _ :: rest => referencedOf rest
  | .mk _ _ (some dependency) _ _ :: rest =>
      dependency.rows :: (dependency.referenced ++ referencedOf rest)

end

/-! ### The text of a table -/

theorem toList_quoted (text : String) : (quoted text).toList = (Atom.text text).print := by
  simp [quoted, Atom.print, Notation.quote]

theorem toList_bracketed (parts : List String) :
    (bracketed parts).toList = Notation.bracketed (parts.map String.toList) := by
  simp [bracketed, Notation.bracketed]

theorem toList_length (length : Nat) : (toString length).toList = (Atom.number length).print :=
  rfl

theorem toList_render_field (field : Field) : field.render.toList = Notation.row field.atoms := by
  obtain ⟨name, fieldType, block, length, lengthField⟩ := field
  rw [Field.render, toList_bracketed, List.map_append, Notation.row, Field.atoms, List.map_append]
  simp only [List.map_cons, List.map_nil, toList_quoted]
  cases length with
  | none => rfl
  | some length =>
      cases lengthField with
      | none => rfl
      | some lengthField =>
          simp only [Field.length, Field.lengthField, Option.map_some, Option.getD_some,
            List.map_cons, List.map_nil, toList_quoted, toList_length, lengthAtoms]

theorem toList_renderValue (value : String × Int) :
    (renderValue value).toList = Notation.row (valueAtoms value) := by
  rw [renderValue, toList_bracketed]
  simp only [List.map_cons, List.map_nil, toList_quoted]
  rfl

theorem Block.toList_render (block : Block) :
    block.render.toList = Notation.table block.rows := by
  cases block with
  | fields parts =>
      rw [Block.render, toList_bracketed, Notation.table, Block.rows, List.map_map, List.map_map]
      exact congrArg Notation.bracketed (List.map_congr_left fun field _ =>
        toList_render_field field)
  | enum values =>
      rw [Block.render, toList_bracketed, Notation.table, Block.rows, List.map_map, List.map_map]
      exact congrArg Notation.bracketed (List.map_congr_left fun value _ =>
        toList_renderValue value)
  | _ => rfl

mutual

theorem Block.toList_dependencies : (block : Block) →
    block.dependencies.toList = block.referenced.flatMap Notation.table
  | .fields parts => by
      unfold Block.dependencies Block.referenced
      exact toList_dependenciesOf parts
  | .enum _ => rfl
  | .alias => rfl

theorem toList_dependenciesOf : (parts : List Field) →
    (dependenciesOf parts).toList = (referencedOf parts).flatMap Notation.table
  | [] => rfl
  | .mk _ _ none _ _ :: rest => by
      unfold dependenciesOf referencedOf
      exact toList_dependenciesOf rest
  | .mk _ _ (some dependency) _ _ :: rest => by
      unfold dependenciesOf referencedOf
      rw [String.toList_append, String.toList_append, dependency.toList_render,
        dependency.toList_dependencies, toList_dependenciesOf rest, List.flatMap_cons,
        List.flatMap_append, List.append_assoc]

end

theorem Block.toList_declaration (block : Block) :
    block.declaration.toList = (block.rows :: block.referenced).flatMap Notation.table := by
  rw [Block.declaration, String.toList_append, block.toList_render, block.toList_dependencies,
    List.flatMap_cons]

/-! ## Declarations that a text tells -/

/-- An identifier as the macro takes it: it needs no escape between quotes. -/
def clear (identifier : String) : Bool := !identifier.toList.contains '\''

/-- The name has the form of a declared type. -/
def reserved (fieldType : String) : Bool := "vl_api_".toList.isPrefixOf fieldType.toList

mutual

/-- Every identifier is clear, and no primitive type has the name of a declared one. -/
def Block.declared : Block → Bool
  | .fields parts => declaredFields parts
  | .enum values => values.all fun value => clear value.1
  | .alias => true

def declaredFields : List Field → Bool
  | [] => true
  | .mk name fieldType none _ lengthField :: rest =>
      clear name && clear fieldType && lengthField.all clear && !reserved fieldType &&
        declaredFields rest
  | .mk name fieldType (some block) _ lengthField :: rest =>
      clear name && clear fieldType && lengthField.all clear && block.declared &&
        declaredFields rest

end

mutual

/-- The declaration without what its text leaves out: which kind of block an empty one is, and the
length field of a field without a length. -/
def Block.norm : Block → Block
  | .fields parts => if parts.isEmpty then .alias else .fields (normFields parts)
  | .enum values => if values.isEmpty then .alias else .enum values
  | .alias => .alias

def normFields : List Field → List Field
  | [] => []
  | .mk name fieldType none length lengthField :: rest =>
      .mk name fieldType none length (length.bind fun _ => lengthField) :: normFields rest
  | .mk name fieldType (some block) length lengthField :: rest =>
      .mk name fieldType (some block.norm) length (length.bind fun _ => lengthField) ::
        normFields rest

end

theorem isEmpty_normFields : (parts : List Field) → (normFields parts).isEmpty = parts.isEmpty
  | [] => rfl
  | .mk _ _ none _ _ :: _ => by unfold normFields; rfl
  | .mk _ _ (some _) _ _ :: _ => by unfold normFields; rfl

/-! ### What the text leaves out -/

theorem atoms_norm {name fieldType : String} {block block' : Option Block} {length : Option Nat}
    {lengthField : Option String} (same : block'.isSome = block.isSome) :
    (Field.mk name fieldType block' length (length.bind fun _ => lengthField)).atoms =
      (Field.mk name fieldType block length lengthField).atoms := by
  simp only [Field.atoms, Field.typeName, Field.block, Field.fieldType, Field.name, Field.length,
    Field.lengthField, same]
  cases length <;> rfl

theorem atoms_normFields : (parts : List Field) →
    (normFields parts).map Field.atoms = parts.map Field.atoms
  | [] => rfl
  | .mk name fieldType none length lengthField :: rest => by
      unfold normFields
      rw [List.map_cons, List.map_cons, atoms_normFields rest, atoms_norm rfl]
  | .mk name fieldType (some block) length lengthField :: rest => by
      unfold normFields
      rw [List.map_cons, List.map_cons, atoms_normFields rest]
      exact congrArg (· :: _) (atoms_norm rfl)

theorem Block.rows_norm : (block : Block) → block.norm.rows = block.rows
  | .fields [] => by unfold Block.norm; rfl
  | .fields (part :: parts) => by
      unfold Block.norm
      exact atoms_normFields (part :: parts)
  | .enum [] => by unfold Block.norm; rfl
  | .enum (_ :: _) => by unfold Block.norm; rfl
  | .alias => by unfold Block.norm; rfl

mutual

theorem Block.referenced_norm : (block : Block) → block.norm.referenced = block.referenced
  | .fields [] => by unfold Block.norm; rfl
  | .fields (part :: parts) => by
      unfold Block.norm
      exact referencedOf_norm (part :: parts)
  | .enum [] => by unfold Block.norm; rfl
  | .enum (_ :: _) => by unfold Block.norm; rfl
  | .alias => by unfold Block.norm; rfl

theorem referencedOf_norm : (parts : List Field) →
    referencedOf (normFields parts) = referencedOf parts
  | [] => by unfold normFields; rfl
  | .mk _ _ none _ _ :: rest => by
      unfold normFields referencedOf
      exact referencedOf_norm rest
  | .mk _ _ (some dependency) _ _ :: rest => by
      unfold normFields referencedOf
      rw [dependency.rows_norm, dependency.referenced_norm, referencedOf_norm rest]

end

/-! ### What it tells -/

theorem lengthAtoms_inj {length length' : Option Nat} {lengthField lengthField' : Option String}
    (same : lengthAtoms length lengthField = lengthAtoms length' lengthField') :
    length = length' ∧
      (length.bind fun _ => lengthField) = length'.bind fun _ => lengthField' := by
  cases length with
  | none => cases length' with
    | none => exact ⟨rfl, rfl⟩
    | some length' => cases lengthField' <;> cases same
  | some length => cases length' with
    | none => cases lengthField <;> cases same
    | some length' => cases lengthField <;> cases lengthField' <;> cases same <;> exact ⟨rfl, rfl⟩

/-- The prefix and the suffix of a declared type's name. -/
theorem typeName_inj {name name' : String}
    (same : "vl_api_" ++ name ++ "_t" = "vl_api_" ++ name' ++ "_t") : name = name' := by
  have letters := congrArg String.toList same
  simp only [String.toList_append, List.append_assoc] at letters
  exact String.toList_injective (List.append_cancel_right (List.append_cancel_left letters))

theorem reserved_typeName (name : String) : reserved ("vl_api_" ++ name ++ "_t") = true := by
  rw [reserved, String.toList_append, String.toList_append, List.append_assoc]
  exact List.isPrefixOf_iff_prefix.mpr (List.prefix_append _ _)

theorem atoms_inj {left right : Field} (same : left.atoms = right.atoms) :
    left.typeName = right.typeName ∧ left.name = right.name ∧ left.length = right.length ∧
      (left.length.bind fun _ => left.lengthField) =
        right.length.bind fun _ => right.lengthField := by
  obtain ⟨typeName, others⟩ := List.cons.inj same
  obtain ⟨name, lengths⟩ := List.cons.inj others
  exact ⟨Atom.text.inj typeName, Atom.text.inj name, lengthAtoms_inj lengths⟩

theorem valueAtoms_injective : Function.Injective valueAtoms := by
  intro left right same
  obtain ⟨name, others⟩ := List.cons.inj same
  exact Prod.ext (Atom.text.inj name) (Atom.number.inj (List.cons.inj others).1)

/-- The row of a field is no row of an enumeration. -/
theorem atoms_ne_valueAtoms {field : Field} {value : String × Int} :
    field.atoms ≠ valueAtoms value := by
  intro same
  cases (List.cons.inj (List.cons.inj same).2).1

theorem Block.norm_fields (parts : List Field) : (Block.fields parts).norm =
    if (normFields parts).isEmpty then .alias else .fields (normFields parts) := by
  rw [isEmpty_normFields, Block.norm]

/-- An empty table tells that the block is empty. -/
theorem Block.empty_of_rows : (block : Block) → block.rows = [] →
    block.norm = .alias ∧ block.referenced = []
  | .fields [], _ => ⟨by unfold Block.norm; rfl, by unfold Block.referenced; rfl⟩
  | .enum [], _ => ⟨by unfold Block.norm; rfl, rfl⟩
  | .alias, _ => ⟨by unfold Block.norm; rfl, rfl⟩

theorem Block.norm_of_empty {left right : Block} {behind behind' : List (List (List Atom))}
    (empty : left.rows = [])
    (rows : left.rows = right.rows)
    (tables : left.referenced ++ behind = right.referenced ++ behind') :
    left.norm = right.norm ∧ behind = behind' := by
  obtain ⟨norm, none⟩ := left.empty_of_rows empty
  obtain ⟨norm', none'⟩ := right.empty_of_rows (rows.symm.trans empty)
  rw [none, none'] at tables
  exact ⟨norm.trans norm'.symm, tables⟩

mutual

/-- Tables of declarations, with others behind them, tell the declaration and the others. -/
theorem Block.norm_of_tables : (left right : Block) → {behind behind' : List (List (List Atom))} →
    left.declared → right.declared → left.rows = right.rows →
      left.referenced ++ behind = right.referenced ++ behind' →
        left.norm = right.norm ∧ behind = behind'
  | .fields left, .fields right, _, _, first, second, rows, tables => by
      obtain ⟨same, others⟩ := normFields_of_tables left right first second rows tables
      exact ⟨by rw [Block.norm_fields, Block.norm_fields, same], others⟩
  | .enum left, .enum right, _, _, _, _, rows, tables => by
      obtain rfl : left = right := List.map_injective_iff.mpr valueAtoms_injective rows
      exact ⟨rfl, tables⟩
  | .fields [], .enum right, _, _, _, _, rows, tables => Block.norm_of_empty rfl rows tables
  | .fields (_ :: _), .enum (_ :: _), _, _, _, _, rows, _ =>
      absurd (List.cons.inj rows).1 atoms_ne_valueAtoms
  | .enum [], .fields right, _, _, _, _, rows, tables => Block.norm_of_empty rfl rows tables
  | .enum (_ :: _), .fields (_ :: _), _, _, _, _, rows, _ =>
      absurd (List.cons.inj rows).1.symm atoms_ne_valueAtoms
  | .alias, right, _, _, _, _, rows, tables => Block.norm_of_empty rfl rows tables
  | left, .alias, _, _, _, _, rows, tables => Block.norm_of_empty rows rows tables

theorem normFields_of_tables : (left right : List Field) →
    {behind behind' : List (List (List Atom))} → declaredFields left → declaredFields right →
      left.map Field.atoms = right.map Field.atoms →
        referencedOf left ++ behind = referencedOf right ++ behind' →
          normFields left = normFields right ∧ behind = behind'
  | [], [], _, _, _, _, _, tables => ⟨rfl, tables⟩
  | .mk name fieldType none length lengthField :: left,
    .mk name' fieldType' none length' lengthField' :: right, _, _, first, second, rows,
      tables => by
      simp only [declaredFields, Bool.and_eq_true] at first second
      obtain ⟨row, below⟩ := List.cons.inj rows
      obtain ⟨typed, named, sized, counted⟩ := atoms_inj row
      obtain rfl : fieldType = fieldType' := typed
      obtain rfl : name = name' := named
      obtain rfl : length = length' := sized
      obtain ⟨same, others⟩ := normFields_of_tables left right first.2 second.2 below tables
      unfold normFields
      exact ⟨by rw [same, show (length.bind fun _ => lengthField) = length.bind fun _ =>
        lengthField' from counted], others⟩
  | .mk name fieldType (some block) length lengthField :: left,
    .mk name' fieldType' (some block') length' lengthField' :: right, _, _, first, second, rows,
      tables => by
      simp only [declaredFields, Bool.and_eq_true] at first second
      obtain ⟨row, below⟩ := List.cons.inj rows
      obtain ⟨typed, named, sized, counted⟩ := atoms_inj row
      obtain rfl : fieldType = fieldType' := typeName_inj typed
      obtain rfl : name = name' := named
      obtain rfl : length = length' := sized
      unfold referencedOf at tables
      simp only [List.cons_append, List.append_assoc] at tables
      obtain ⟨shown, tables⟩ := List.cons.inj tables
      obtain ⟨inner, tables⟩ :=
        Block.norm_of_tables block block' first.1.2 second.1.2 shown tables
      obtain ⟨same, others⟩ := normFields_of_tables left right first.2 second.2 below tables
      unfold normFields
      exact ⟨by rw [same, inner, show (length.bind fun _ => lengthField) =
        length.bind fun _ => lengthField' from counted], others⟩
  | .mk _ fieldType none _ _ :: _, .mk _ fieldType' (some _) _ _ :: _, _, _, first, _,
    rows, _ => by
      simp only [declaredFields, Bool.and_eq_true] at first
      obtain rfl : fieldType = "vl_api_" ++ fieldType' ++ "_t" :=
        (atoms_inj (List.cons.inj rows).1).1
      rw [reserved_typeName] at first
      cases first.1.2
  | .mk _ fieldType (some _) _ _ :: _, .mk _ fieldType' none _ _ :: _, _, _, _, second,
    rows, _ => by
      simp only [declaredFields, Bool.and_eq_true] at second
      obtain rfl : "vl_api_" ++ fieldType ++ "_t" = fieldType' :=
        (atoms_inj (List.cons.inj rows).1).1
      rw [reserved_typeName] at second
      cases second.1.2

end

/-! ### Clear tables -/

/-- No atom of the table needs an escape. -/
def ClearTable (rows : List (List Atom)) : Prop := ∀ atoms ∈ rows, ∀ atom ∈ atoms, Atom.Clear atom

theorem clear_iff {identifier : String} : clear identifier ↔ '\'' ∉ identifier.toList := by
  rw [clear, Bool.not_eq_true', ← Bool.not_eq_true, List.contains_iff_mem]

theorem clear_typeName {name fieldType : String} {block : Option Block} {length : Option Nat}
    {lengthField : Option String} (typed : clear fieldType) :
    clear (Field.mk name fieldType block length lengthField).typeName := by
  have inside := clear_iff.mp typed
  cases block with
  | none => exact typed
  | some block =>
      refine clear_iff.mpr ?_
      show '\'' ∉ ("vl_api_" ++ fieldType ++ "_t").toList
      simp [inside]

theorem clear_atoms {name fieldType : String} {block : Option Block} {length : Option Nat}
    {lengthField : Option String} (named : clear name) (typed : clear fieldType)
    (counted : lengthField.all clear) :
    ∀ atom ∈ (Field.mk name fieldType block length lengthField).atoms, Atom.Clear atom := by
  intro atom member
  rcases List.mem_append.mp member with front | back
  · rcases List.mem_cons.mp front with rfl | front
    · exact clear_iff.mp (clear_typeName typed)
    · obtain rfl := List.mem_singleton.mp front
      exact clear_iff.mp named
  · cases length with
    | none => cases back
    | some length =>
        cases lengthField with
        | none =>
            rcases List.mem_cons.mp back with rfl | back
            · exact trivial
            · obtain rfl := List.mem_singleton.mp back
              exact trivial
        | some field =>
            rcases List.mem_cons.mp back with rfl | back
            · exact trivial
            · obtain rfl := List.mem_singleton.mp back
              exact clear_iff.mp counted

theorem clear_rowsOf : (parts : List Field) → declaredFields parts →
    ClearTable (parts.map Field.atoms)
  | [], _ => fun _ member => by cases member
  | .mk _ _ none _ _ :: rest, declared => by
      simp only [declaredFields, Bool.and_eq_true] at declared
      exact List.forall_mem_cons.mpr
        ⟨clear_atoms declared.1.1.1.1 declared.1.1.1.2 declared.1.1.2,
        clear_rowsOf rest declared.2⟩
  | .mk _ _ (some _) _ _ :: rest, declared => by
      simp only [declaredFields, Bool.and_eq_true] at declared
      exact List.forall_mem_cons.mpr
        ⟨clear_atoms declared.1.1.1.1 declared.1.1.1.2 declared.1.1.2,
        clear_rowsOf rest declared.2⟩

theorem Block.clear_rows : (block : Block) → block.declared → ClearTable block.rows
  | .fields parts, declared => clear_rowsOf parts declared
  | .alias, _ => fun _ member => by cases member
  | .enum values, declared => by
      intro atoms member atom inside
      obtain ⟨value, listed, rfl⟩ := List.mem_map.mp member
      rcases List.mem_cons.mp inside with rfl | inside
      · exact clear_iff.mp (List.all_eq_true.mp declared value listed)
      · obtain rfl := List.mem_singleton.mp inside
        exact trivial

mutual

theorem Block.clear_referenced : (block : Block) → block.declared →
    ∀ rows ∈ block.referenced, ClearTable rows
  | .fields parts, declared => clear_referencedOf parts declared
  | .enum _, _ => fun _ member => by cases member
  | .alias, _ => fun _ member => by cases member

theorem clear_referencedOf : (parts : List Field) → declaredFields parts →
    ∀ rows ∈ referencedOf parts, ClearTable rows
  | [], _ => fun _ member => by cases member
  | .mk _ _ none _ _ :: rest, declared => by
      simp only [declaredFields, Bool.and_eq_true] at declared
      exact clear_referencedOf rest declared.2
  | .mk _ _ (some dependency) _ _ :: rest, declared => by
      simp only [declaredFields, Bool.and_eq_true] at declared
      unfold referencedOf
      refine List.forall_mem_cons.mpr ⟨dependency.clear_rows declared.1.2, fun rows member => ?_⟩
      rcases List.mem_append.mp member with inner | outer
      · exact dependency.clear_referenced declared.1.2 rows inner
      · exact clear_referencedOf rest declared.2 rows outer

end

/-! ## Declarations and their texts -/

theorem table_ne_nil (rows : List (List Atom)) : Notation.table rows ≠ [] := nofun

/-- What is left of the text of a declaration is the declaration without what it leaves out. -/
theorem Block.declaration_of_norm {left right : Block} (same : left.norm = right.norm) :
    left.declaration = right.declaration := by
  apply String.toList_injective
  rw [left.toList_declaration, right.toList_declaration, ← left.rows_norm, ← left.referenced_norm,
    same, right.rows_norm, right.referenced_norm]

theorem Block.norm_of_declaration {left right : Block} (first : left.declared)
    (second : right.declared) (same : left.declaration = right.declaration) :
    left.norm = right.norm := by
  have letters := congrArg String.toList same
  rw [left.toList_declaration, right.toList_declaration] at letters
  have tables := Notation.readable_table.flatMap (fun rows _ => table_ne_nil rows)
    (List.forall_mem_cons.mpr ⟨left.clear_rows first, left.clear_referenced first⟩)
    (List.forall_mem_cons.mpr ⟨right.clear_rows second, right.clear_referenced second⟩) letters
  obtain ⟨rows, others⟩ := List.cons.inj tables
  exact (Block.norm_of_tables left right first second rows (congrArg (· ++ []) others)).1

theorem Block.crc_of_declaration {left right : Block}
    (same : left.declaration = right.declaration) : left.crc = right.crc := by
  have fed (block : Block) : block.crc = ~~~ textCrc (~~~ 0) block.declaration := by
    rw [Block.crc, blockCrc_eq, block.fold_eq, ← textCrc_append, Block.declaration]
  rw [fed, fed, same]

/-- **Declarations.** The bytes under the CRC of a declaration are those of another exactly when
the two declare the same, block by block and field by field; and then the CRC is the same. -/
theorem declaration_iff {left right : Block} (first : left.declared) (second : right.declared) :
    (left.declaration = right.declaration ↔ left.norm = right.norm) ∧
      (left.norm = right.norm → left.crc = right.crc) :=
  ⟨⟨Block.norm_of_declaration first second, Block.declaration_of_norm⟩, fun same =>
    Block.crc_of_declaration (Block.declaration_of_norm same)⟩

/-- The text of a message's declaration tells it. -/
theorem MessageType.declared_block (type : MessageType) : (Api.block type.Message).declared := by
  cases type <;> rfl

/-- A ping and its answer are declared by different texts. -/
theorem declaration_iff_ping :
    (Api.block ControlPing).declaration ≠ (Api.block ControlPingReply).declaration := by
  intro same
  have told := (declaration_iff (MessageType.declared_block .controlPing)
    (MessageType.declared_block .controlPingReply)).1.mp same
  have rows := congrArg Block.rows told
  rw [Block.rows_norm, Block.rows_norm] at rows
  exact absurd rows (by decide)

/-! ## The inventory of a module -/

/-- `same_name`. -/
def sameName (left right : String) : Bool :=
  (toUtf8 left).length == (toUtf8 right).length &&
    ((toUtf8 left).zip (toUtf8 right)).all fun (byte, byte') => byte == byte'

/-- `file_crc`. -/
def fileCrc (blocks : List Block) : UInt32 := ~~~ blocks.foldl blockCrc (~~~ 0)

/-- `validate_services`: none of its assertions fails. -/
def validateServices (services : List (Option Service)) : Bool :=
  services.all fun service => service.all fun service =>
    services.all fun peer => peer.all fun peer =>
      peer.reply.all fun reply => !sameName service.caller reply

theorem all_beq_iff {left right : Bytes} (even : left.length = right.length) :
    ((left.zip right).all fun (byte, byte') => byte == byte') ↔ left = right := by
  induction left generalizing right with
  | nil =>
      cases right with
      | nil => simp
      | cons head right => cases even
  | cons head left ih =>
      cases right with
      | nil => cases even
      | cons head' right => simp [ih (Nat.succ.inj even)]

theorem sameName_iff {left right : String} : sameName left right ↔ left = right := by
  rw [sameName, Bool.and_eq_true, beq_iff_eq]
  constructor
  · intro same
    exact toUtf8_inj ((all_beq_iff same.1).mp same.2)
  · rintro rfl
    exact ⟨rfl, (all_beq_iff rfl).mpr rfl⟩

/-- The assertions hold exactly when no caller of a service is the reply of one. -/
theorem validateServices_iff {services : List (Option Service)} :
    validateServices services ↔ ∀ service peer, some service ∈ services → some peer ∈ services →
      peer.reply ≠ some service.caller := by
  simp only [validateServices, List.all_eq_true]
  constructor
  · intro valid service peer listed listed' same
    have apart := valid _ listed
    simp only [Option.all_some, List.all_eq_true] at apart
    have apart := apart _ listed'
    rw [Option.all_some, same, Option.all_some, sameName_iff.mpr rfl] at apart
    cases apart
  · intro apart service listed
    cases service with
    | none => rfl
    | some service =>
        rw [Option.all_some, List.all_eq_true]
        intro peer listed'
        cases peer with
        | none => rfl
        | some peer =>
            rw [Option.all_some]
            cases replied : peer.reply with
            | none => rfl
            | some reply =>
                have other : ¬ sameName service.caller reply := fun same =>
                  apart service peer listed listed' (sameName_iff.mp same ▸ replied)
                simpa using other

/-- No inventory of the declared messages trips the assertions. -/
theorem MessageType.validate_services (types : List MessageType) :
    validateServices (types.map fun type => Api.service type.Message) := by
  refine validateServices_iff.mpr fun service peer listed listed' replied => ?_
  obtain ⟨type, -, served⟩ := List.mem_map.mp listed
  obtain ⟨type', -, served'⟩ := List.mem_map.mp listed'
  cases type <;> cases served <;> cases type' <;> cases served' <;>
    exact absurd replied (by decide)

/-- `file_crc` feeds the texts of the blocks, one behind the other. -/
theorem foldl_blockCrc (crc : UInt32) (blocks : List Block) :
    blocks.foldl blockCrc crc = textCrc crc (String.join (blocks.map Block.render)) := by
  induction blocks generalizing crc with
  | nil => rw [List.map_nil, String.join_nil, textCrc_empty, List.foldl_nil]
  | cons block blocks ih =>
      rw [List.foldl_cons, ih, blockCrc_eq, List.map_cons, String.join_cons, textCrc_append]

theorem fileCrc_eq (blocks : List Block) :
    fileCrc blocks = Crc.crc32 (toUtf8 (String.join (blocks.map Block.render))) := by
  unfold fileCrc Crc.crc32
  rw [foldl_blockCrc]
  apply UInt32.toBitVec_inj.mp
  rw [UInt32.toBitVec_not, textCrc_toBitVec, BitVec.not_def]
  rfl

theorem toList_join_render (blocks : List Block) :
    (String.join (blocks.map Block.render)).toList =
      (blocks.map Block.rows).flatMap Notation.table := by
  induction blocks with
  | nil => simp
  | cons block blocks ih =>
      rw [List.map_cons, String.join_cons, String.toList_append, block.toList_render, ih,
        List.map_cons, List.flatMap_cons]

/-- **Inventories.** The CRC of a module is that of a text, and for declared blocks that text
tells how many blocks there are, in which order, and what each of them declares itself. -/
theorem inventory_iff {left right : List Block} (first : ∀ block ∈ left, block.declared)
    (second : ∀ block ∈ right, block.declared) :
    fileCrc left = Crc.crc32 (toUtf8 (String.join (left.map Block.render))) ∧
      (String.join (left.map Block.render) = String.join (right.map Block.render) ↔
        left.map Block.rows = right.map Block.rows) := by
  refine ⟨fileCrc_eq left, fun same => ?_, fun same => ?_⟩
  · have letters := congrArg String.toList same
    rw [toList_join_render, toList_join_render] at letters
    have clearRows {blocks : List Block} (declared : ∀ block ∈ blocks, block.declared) :
        ∀ rows ∈ blocks.map Block.rows, ClearTable rows := by
      intro rows member
      obtain ⟨block, listed, rfl⟩ := List.mem_map.mp member
      exact block.clear_rows (declared block listed)
    exact Notation.readable_table.flatMap (fun rows _ => table_ne_nil rows) (clearRows first)
      (clearRows second) letters
  · apply String.toList_injective
    rw [toList_join_render, toList_join_render, same]

/-- The order of the declarations is in the text. -/
theorem inventory_iff_swapped :
    String.join ([Api.block ControlPing, Api.block ControlPingReply].map Block.render) ≠
      String.join ([Api.block ControlPingReply, Api.block ControlPing].map Block.render) := by
  intro same
  have declared := MessageType.declared_block .controlPing
  have declared' := MessageType.declared_block .controlPingReply
  have told :=
    (inventory_iff (List.forall_mem_cons.mpr ⟨declared, List.forall_mem_singleton.mpr declared'⟩)
      (List.forall_mem_cons.mpr ⟨declared', List.forall_mem_singleton.mpr declared⟩)).2.mp same
  exact absurd told (by decide)

end Netsystem.Api
