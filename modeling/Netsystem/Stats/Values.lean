import Netsystem.Stats.Quiet

/-!
# Values of a quiet mapping

What the arms of `decode_entry` yield on a mapping that nobody writes. Each piece of a value (a
row, a name, an entry) comes with the condition under which the client reads it (`RowSound`,
`NameSound`, `EntrySound`), the condition under which the read faults (`RowDefect`, `NameDefect`,
`EntryDefect`) and the value itself (`rowAt`, `nameAt`, `valueAt`). A piece that is neither sound
nor defective is refused with an error.
-/

namespace Netsystem.Stats

open Prog

variable {mapping : Bytes} {base : Nat}

/-! ## Rows of counters -/

/-- The pointer of row `row`, zero where the row is absent. -/
def pointerAt (mapping : Bytes) (outer : PublishedVector) (row : Nat) : Nat :=
  wordAt mapping outer row sizeOfPointer

def u64At (mapping : Bytes) (vector : PublishedVector) (index : Nat) : UInt64 :=
  UInt64.ofNat (wordAt mapping vector index sizeOfU64)

def counterAt (mapping : Bytes) (vector : PublishedVector) (index : Nat) : Counter where
  packets := UInt64.ofNat (leNat (window mapping (vector.offsetOf index) 8))
  bytes := UInt64.ofNat (leNat (window mapping (vector.offsetOf index + 8) 8))

/-- A reader of cells of `size` bytes: inside the mapping it yields `value`, outside an error. -/
def CellReads {β : Type} (mapping : Bytes) (size : Nat) (cell : PublishedVector → Nat → Reader β)
    (value : PublishedVector → Nat → β) : Prop :=
  ∀ vector index, vector.elementSize = size →
    Verdict quiet (cell vector index) mapping (ElementInside mapping vector index) False
      (value vector index)

theorem u64_reads :
    CellReads mapping sizeOfU64 (fun vector index => vector.u64 (whole mapping) index)
      (u64At mapping) :=
  fun _ _ wide => (word_verdict (Nat.le_of_eq wide.symm)).bind_of_ok fun _ => rfl

theorem counter_reads :
    CellReads mapping sizeOfCounter (fun vector index => readCounter vector (whole mapping) index)
      (counterAt mapping) := by
  intro vector index wide
  refine element_verdict.bind_of_ok fun inside => ?_
  have low := exec_range_copy 0 8 inside.slice (by simp [wide, sizeOfCounter])
  have high := exec_range_copy 8 8 inside.slice (by simp [wide, sizeOfCounter])
  simp only [bind_eq, Nat.zero_add, Nat.reduceAdd] at low high ⊢
  rw [← Prog.bind_assoc, exec_bind_of_ok low, ← Prog.bind_assoc, exec_bind_of_ok high]
  rfl

/-- The row readers of `decode_entry` in one form: an absent row is empty, a present one is read
cell by cell. -/
def rowOf {β : Type} (cell : PublishedVector → Nat → Reader β) (size : Nat) (mapping : Slice)
    (base : Nat) (outer : PublishedVector) (row : Nat) : Reader (List β) :=
  (innerVector mapping base outer row size).bind fun
    | none => .done (.ok [])
    | some inner => collectFrom (cell inner) 0 inner.length

theorem simpleRow_eq {mapping : Slice} {base row : Nat} {outer : PublishedVector} :
    simpleRow mapping base outer row =
      rowOf (fun inner index => inner.u64 mapping index) sizeOfU64 mapping base outer row := by
  simp only [simpleRow, innerU64Vector, rowOf, bind_eq, pure_eq, bind_assoc]
  congr 1
  funext inner
  cases inner with
  | none => rfl
  | some inner => exact (bind_assoc _ _ _).trans (bind_pure _)

theorem combinedRow_eq {mapping : Slice} {base row : Nat} {outer : PublishedVector} :
    combinedRow mapping base outer row =
      rowOf (fun inner index => readCounter inner mapping index) sizeOfCounter mapping base outer
        row := rfl

/-- The pointer of row `row` is in range; the vector it names, if any, is sound and its cells of
`size` bytes lie inside the mapping. -/
structure RowSound (mapping : Bytes) (base size : Nat) (outer : PublishedVector) (row : Nat) :
    Prop where
  inside : ElementInside mapping outer row
  sound : pointerAt mapping outer row ≠ 0 → VectorSound mapping base (pointerAt mapping outer row)
  cells : pointerAt mapping outer row ≠ 0 → ∀ index,
    index < (vectorAt mapping base (pointerAt mapping outer row) size).length →
      ElementInside mapping (vectorAt mapping base (pointerAt mapping outer row) size) index

/-- A row whose vector header makes the alignment shift overflow. -/
structure RowDefect (mapping : Bytes) (base : Nat) (outer : PublishedVector) (row : Nat) :
    Prop where
  inside : ElementInside mapping outer row
  present : pointerAt mapping outer row ≠ 0
  defect : VectorDefect mapping base (pointerAt mapping outer row)

/-- The cells of row `row`. -/
def rowAt {β : Type} (value : PublishedVector → Nat → β) (mapping : Bytes) (base size : Nat)
    (outer : PublishedVector) (row : Nat) : List β :=
  if pointerAt mapping outer row = 0 then []
  else
    let inner := vectorAt mapping base (pointerAt mapping outer row) size
    (List.range' 0 inner.length).map (value inner)

section Rows

variable {β : Type} {cell : PublishedVector → Nat → Reader β} {value : PublishedVector → Nat → β}
  {size row : Nat} {outer : PublishedVector}

/-- The inner vector of a row, `none` where the row is absent. -/
theorem innerVector_verdict (mapping : Bytes) (base size row : Nat)
    (wide : outer.elementSize = sizeOfPointer) :
    Verdict quiet (innerVector (whole mapping) base outer row size) mapping
      (ElementInside mapping outer row ∧
        (pointerAt mapping outer row ≠ 0 →
          VectorSound mapping base (pointerAt mapping outer row)))
      (RowDefect mapping base outer row)
      (if pointerAt mapping outer row = 0 then none
        else some (vectorAt mapping base (pointerAt mapping outer row) size)) := by
  have pointer : Verdict quiet (outer.pointer (whole mapping) row) mapping
      (ElementInside mapping outer row) False (pointerAt mapping outer row) :=
    word_verdict (Nat.le_of_eq wide.symm)
  rw [innerVector, bind_eq]
  by_cases absent : pointerAt mapping outer row = 0
  · simp only [absent, if_true]
    refine (pointer.bind_of_ok fun _ => by rw [if_pos absent]; rfl).congr ?_ ?_ fun _ => rfl
    · simp
    · exact ⟨False.elim, fun defect => defect.present absent⟩
  · have present : Verdict quiet (if pointerAt mapping outer row = 0 then pure none
        else (PublishedVector.resolve (whole mapping) base (pointerAt mapping outer row)
          size).bind
          fun inner => pure (some inner) : Reader (Option PublishedVector)) mapping
        (VectorSound mapping base (pointerAt mapping outer row))
        (VectorDefect mapping base (pointerAt mapping outer row))
        (some (vectorAt mapping base (pointerAt mapping outer row) size)) := by
      rw [if_neg absent]
      exact (resolve_verdict _ _ _ _).bind_of_ok fun _ => rfl
    refine (pointer.bind fun _ => present).congr ?_ ?_ fun _ => by rw [if_neg absent]
    · simp [absent]
    · exact ⟨fun fault => fault.elim False.elim fun both => ⟨both.1, absent, both.2⟩,
        fun defect => .inr ⟨defect.inside, defect.defect⟩⟩

/-- A row faults in its vector header or nowhere. -/
theorem rowOf_verdict (reads : CellReads mapping size cell value)
    (wide : outer.elementSize = sizeOfPointer) :
    Verdict quiet (rowOf cell size (whole mapping) base outer row) mapping
      (RowSound mapping base size outer row) (RowDefect mapping base outer row)
      (rowAt value mapping base size outer row) := by
  have inner := innerVector_verdict mapping base size row wide
  by_cases absent : pointerAt mapping outer row = 0
  · rw [if_pos absent] at inner
    refine (inner.bind_of_ok fun _ => rfl).congr ?_ Iff.rfl fun _ => by rw [rowAt, if_pos absent]
    exact ⟨fun sound => ⟨sound.1, sound.2, fun present => absurd absent present⟩,
      fun sound => ⟨sound.inside, sound.sound⟩⟩
  · rw [if_neg absent] at inner
    have cells := Verdict.collect 0
      (vectorAt mapping base (pointerAt mapping outer row) size).length
      fun index => reads (vectorAt mapping base (pointerAt mapping outer row) size) index rfl
    refine (inner.bind fun _ => cells).congr ?_ ?_ fun _ => by rw [rowAt, if_neg absent]
    · exact ⟨fun sound => ⟨sound.1.1, sound.1.2, fun _ index bound =>
          sound.2 index (Nat.zero_le index) (by omega)⟩,
        fun sound => ⟨⟨sound.inside, sound.sound⟩, fun index _ bound =>
          sound.cells absent index (by omega)⟩⟩
    · exact ⟨fun fault => fault.elim id fun ⟨_, _, _, _, _, never⟩ => never.elim, .inl⟩

theorem simpleRow_verdict (mapping : Bytes) (base : Nat) (outer : PublishedVector) (row : Nat)
    (wide : outer.elementSize = sizeOfPointer) :
    Verdict quiet (simpleRow (whole mapping) base outer row) mapping
      (RowSound mapping base sizeOfU64 outer row) (RowDefect mapping base outer row)
      (rowAt (u64At mapping) mapping base sizeOfU64 outer row) := by
  rw [simpleRow_eq]
  exact rowOf_verdict u64_reads wide

theorem combinedRow_verdict (mapping : Bytes) (base : Nat) (outer : PublishedVector) (row : Nat)
    (wide : outer.elementSize = sizeOfPointer) :
    Verdict quiet (combinedRow (whole mapping) base outer row) mapping
      (RowSound mapping base sizeOfCounter outer row) (RowDefect mapping base outer row)
      (rowAt (counterAt mapping) mapping base sizeOfCounter outer row) := by
  rw [combinedRow_eq]
  exact rowOf_verdict counter_reads wide

end Rows

/-! ## Names -/

/-- The NUL-terminated text at `offset`. -/
def nameAt (mapping : Bytes) (offset : Nat) : Option String :=
  ((mapping.drop offset).findIdx? (· == 0)).bind fun stop => fromUtf8 (window mapping offset stop)

/-- The pointer of name `index` is in range and leads to a valid text. -/
structure NameSound (mapping : Bytes) (base : Nat) (outer : PublishedVector) (index : Nat) :
    Prop where
  inside : ElementInside mapping outer index
  above : base ≤ pointerAt mapping outer index
  within : pointerAt mapping outer index - base ≤ mapping.length
  valid : ∃ text, nameAt mapping (pointerAt mapping outer index - base) = some text

/-- A name pointer past the end of the mapping: slicing the mapping there faults. -/
structure NameDefect (mapping : Bytes) (base : Nat) (outer : PublishedVector) (index : Nat) :
    Prop where
  inside : ElementInside mapping outer index
  above : base ≤ pointerAt mapping outer index
  beyond : mapping.length < pointerAt mapping outer index - base

theorem text_verdict {offset : Nat} (within : offset ≤ mapping.length) :
    Verdict quiet (do
        let bytes ← (whole mapping).range offset (whole mapping).length
        match ← bytes.position 0 bytes.length with
        | none => .throw (.protocol .missingNameTerminator)
        | some stop => do
            let text ← bytes.range 0 stop
            let copied ← text.copy stop
            match fromUtf8 copied with
            | none => .throw (.protocol .invalidNameEncoding)
            | some name => pure name : Reader String) mapping
      (∃ text, nameAt mapping offset = some text) False
        ((nameAt mapping offset).getD default) := by
  have range : (whole mapping).range offset (whole mapping).length =
      (.done (.ok ⟨offset, mapping.length - offset⟩) : Reader Slice) := by
    rw [Slice.range, Slice.get_of_le _ (show offset ≤ (whole mapping).length from within)
      (Nat.le_refl _), whole_offset, Nat.zero_add]
    rfl
  have covered : (⟨offset, mapping.length - offset⟩ : Slice).Inside mapping := by
    simp only [Slice.Inside]
    omega
  have tail : window mapping offset (mapping.length - offset) = mapping.drop offset := by
    rw [window, List.take_of_length_le (by simp)]
  have position : ((⟨offset, mapping.length - offset⟩ : Slice).position 0
      (mapping.length - offset)).exec quiet mapping =
        (.ok (((mapping.drop offset).findIdx? (· == 0)).map (· + 0)), mapping) := by
    rw [exec_position covered (by simp), Nat.add_zero, tail]
  simp only [bind_eq, range, bind_ok]
  cases found : (mapping.drop offset).findIdx? (· == 0) with
  | none =>
      rw [found] at position
      refine .of_error ((exec_bind_of_ok position).trans rfl) ?_ id
      simp [nameAt, found]
  | some stop =>
      have bound : stop < mapping.length - offset := by
        have inside := (List.findIdx?_eq_some_iff_findIdx_eq.mp found).1
        rwa [List.length_drop] at inside
      rw [found] at position
      have copied := exec_range_copy 0 stop covered (by simp only; omega)
      rw [Nat.zero_add] at copied
      have run : ∀ next : Bytes → Reader String,
          (((⟨offset, mapping.length - offset⟩ : Slice).position 0 (mapping.length - offset)).bind
            fun
              | none => .throw (.protocol .missingNameTerminator)
              | some stop => ((⟨offset, mapping.length - offset⟩ : Slice).range 0 stop).bind
                  fun text => (text.copy stop).bind next).exec quiet mapping =
            (next (window mapping offset stop)).exec quiet mapping := by
        intro next
        rw [exec_bind_of_ok position]
        simp only [Option.map_some, Nat.add_zero]
        rw [← Prog.bind_assoc, exec_bind_of_ok copied]
        rfl
      cases text : fromUtf8 (window mapping offset stop) with
      | none =>
          refine .of_error ((run _).trans (by simp only [text]; rfl)) ?_ id
          simp [nameAt, found, text]
      | some name =>
          refine .of_ok ?_ ⟨name, by simp [nameAt, found, text]⟩ id
          rw [run]
          simp [nameAt, found, text]

theorem nameElement_verdict (mapping : Bytes) (base : Nat) (outer : PublishedVector)
    (index : Nat)
    (wide : outer.elementSize = sizeOfPointer) :
    Verdict quiet (nameElement (whole mapping) base outer index) mapping
      (NameSound mapping base outer index) (NameDefect mapping base outer index)
      ((nameAt mapping (pointerAt mapping outer index - base)).getD default) := by
  have pointer : Verdict quiet (outer.pointer (whole mapping) index) mapping
      (ElementInside mapping outer index) False (pointerAt mapping outer index) :=
    word_verdict (Nat.le_of_eq wide.symm)
  rw [nameElement, bind_eq]
  by_cases inside : ElementInside mapping outer index
  · have got := pointer.exec inside
    by_cases before : pointerAt mapping outer index < base
    · exact .of_error ((exec_bind_of_ok got).trans (by rw [if_pos before]; rfl))
        (fun sound => Nat.not_le.mpr before sound.above)
        fun defect => Nat.not_le.mpr before defect.above
    · by_cases within : pointerAt mapping outer index - base ≤ mapping.length
      · refine (pointer.bind fun _ => by rw [if_neg before]; exact text_verdict within).congr
          ?_ ?_ fun _ => rfl
        · exact ⟨fun both => ⟨both.1, Nat.not_lt.mp before, within, both.2⟩,
            fun sound => ⟨sound.inside, sound.valid⟩⟩
        · exact ⟨fun fault => fault.elim False.elim fun both => both.2.elim,
            fun defect => absurd within (Nat.not_le.mpr defect.beyond)⟩
      · have outside : (whole mapping).get (pointerAt mapping outer index - base)
            (whole mapping).length = none := if_neg fun order => within order.1
        exact .of_panic ((exec_bind_of_ok got).trans
          (by rw [if_neg before, Slice.range, outside]; rfl)) (fun sound => within sound.within)
          ⟨inside, Nat.not_lt.mp before, Nat.not_le.mp within⟩
  · exact (pointer.bind_of_unsound inside).congr
      ⟨fun sound => absurd sound inside, fun sound => absurd sound.inside inside⟩
      ⟨False.elim, fun defect => absurd defect.inside inside⟩ fun _ => rfl

/-! ## Entries -/

/-- The vector of pointers at `pointer` is sound and so is every piece that it names. -/
structure PiecesSound (mapping : Bytes) (base pointer : Nat)
    (sound : PublishedVector → Nat → Prop) : Prop where
  vector : VectorSound mapping base pointer
  pieces : ∀ index, index < (vectorAt mapping base pointer sizeOfPointer).length →
    sound (vectorAt mapping base pointer sizeOfPointer) index

/-- The vector of pointers overflows the shift, or its first unsound piece is defective. -/
def PiecesDefect (mapping : Bytes) (base pointer : Nat)
    (sound defect : PublishedVector → Nat → Prop) : Prop :=
  VectorDefect mapping base pointer ∨ VectorSound mapping base pointer ∧
    ∃ index, index < (vectorAt mapping base pointer sizeOfPointer).length ∧
      (∀ earlier, earlier < index →
        sound (vectorAt mapping base pointer sizeOfPointer) earlier) ∧
      defect (vectorAt mapping base pointer sizeOfPointer) index

theorem pieces_verdict {β : Type} (base pointer : Nat)
    {piece : PublishedVector → Nat → Reader β}
    {sound defect : PublishedVector → Nat → Prop} {value : PublishedVector → Nat → β}
    (each : ∀ outer index, outer.elementSize = sizeOfPointer →
      Verdict quiet (piece outer index) mapping (sound outer index) (defect outer index)
        (value outer index)) :
    Verdict quiet ((PublishedVector.resolve (whole mapping) base pointer sizeOfPointer).bind
        fun outer => collectFrom (piece outer) 0 outer.length) mapping
      (PiecesSound mapping base pointer sound) (PiecesDefect mapping base pointer sound defect)
      ((List.range' 0 (vectorAt mapping base pointer sizeOfPointer).length).map
        (value (vectorAt mapping base pointer sizeOfPointer))) := by
  refine ((resolve_verdict mapping base pointer sizeOfPointer).bind fun _ =>
    Verdict.collect 0 _ fun index => each _ index rfl).congr ?_ ?_ fun _ => rfl
  · exact ⟨fun sound =>
      ⟨sound.1, fun index bound => sound.2 index (Nat.zero_le index) (by omega)⟩,
      fun sound => ⟨sound.vector, fun index _ bound => sound.pieces index (by omega)⟩⟩
  · simp only [PiecesDefect, Nat.zero_add, Nat.zero_le, true_and, forall_const]

/-- The entry decodes to a value. -/
def EntrySound (mapping : Bytes) (base : Nat) (entry : DirectoryEntry) : DirectoryType → Prop
  | .scalarIndex => True
  | .gauge => True
  | .counterVectorSimple =>
      PiecesSound mapping base entry.data.toNat (RowSound mapping base sizeOfU64)
  | .counterVectorCombined =>
      PiecesSound mapping base entry.data.toNat (RowSound mapping base sizeOfCounter)
  | .nameVector => PiecesSound mapping base entry.data.toNat (NameSound mapping base)
  | _ => False

/-- Decoding the entry faults. -/
def EntryDefect (mapping : Bytes) (base : Nat) (entry : DirectoryEntry) : DirectoryType → Prop
  | .counterVectorSimple =>
      PiecesDefect mapping base entry.data.toNat (RowSound mapping base sizeOfU64)
        (RowDefect mapping base)
  | .counterVectorCombined =>
      PiecesDefect mapping base entry.data.toNat (RowSound mapping base sizeOfCounter)
        (RowDefect mapping base)
  | .nameVector =>
      PiecesDefect mapping base entry.data.toNat (NameSound mapping base)
        (NameDefect mapping base)
  | _ => False

/-- The pieces named by the vector of pointers at `pointer`. -/
def piecesAt {β : Type} (value : PublishedVector → Nat → β) (mapping : Bytes)
    (base pointer : Nat) : List β :=
  (List.range' 0 (vectorAt mapping base pointer sizeOfPointer).length).map
    (value (vectorAt mapping base pointer sizeOfPointer))

/-- The value of an entry. -/
def valueAt (mapping : Bytes) (base : Nat) (entry : DirectoryEntry) : DirectoryType → MetricValue
  | .gauge => .gauge entry.data
  | .counterVectorSimple => .simple
      (piecesAt (rowAt (u64At mapping) mapping base sizeOfU64) mapping base entry.data.toNat)
  | .counterVectorCombined => .combined
      (piecesAt (rowAt (counterAt mapping) mapping base sizeOfCounter) mapping base
        entry.data.toNat)
  | .nameVector => .names
      (piecesAt (fun outer index => (nameAt mapping (pointerAt mapping outer index - base)).getD
        default) mapping base entry.data.toNat)
  | _ => .scalar entry.data

theorem dataOf_of_mem {entry : DirectoryEntry} {directoryType : DirectoryType}
    {accepted : List DirectoryType} (expected : String) (typed : entry.type = .ok directoryType)
    (member : directoryType ∈ accepted) : entry.dataOf accepted expected = .ok entry.data := by
  rw [DirectoryEntry.dataOf, typed]
  exact if_pos member

theorem vectorOf_eq {mapping : Slice} {entry : DirectoryEntry} {directoryType : DirectoryType}
    (typed : entry.type = .ok directoryType)
    (member : directoryType ∈ [.counterVectorSimple, .counterVectorCombined, .histogramLog2,
      .ringBuffer]) :
    vectorOf mapping base entry =
      PublishedVector.resolve mapping base entry.data.toNat sizeOfPointer := by
  rw [vectorOf, DirectoryEntry.dataPointer, dataOf_of_mem _ typed member]
  rfl

theorem nameVectorPointer_of_type {entry : DirectoryEntry}
    (typed : entry.type = .ok .nameVector) : entry.nameVectorPointer = .ok entry.data.toNat := by
  rw [DirectoryEntry.nameVectorPointer, dataOf_of_mem _ typed (by simp)]
  rfl

theorem symlink_of_type {entry : DirectoryEntry} (typed : entry.type = .ok .symlink) :
    entry.symlink = .ok (entry.data.toNat % 2 ^ 32, entry.data.toNat / 2 ^ 32) := by
  rw [DirectoryEntry.symlink, dataOf_of_mem _ typed (by simp)]
  rfl

theorem decodeValue_verdict {entry : DirectoryEntry} {directoryType : DirectoryType}
    (name : String) (typed : entry.type = .ok directoryType) :
    Verdict quiet (decodeValue (whole mapping) base entry name directoryType) mapping
      (EntrySound mapping base entry directoryType) (EntryDefect mapping base entry directoryType)
      (valueAt mapping base entry directoryType) := by
  cases directoryType with
  | scalarIndex =>
      have data : entry.scalar = .ok entry.data := dataOf_of_mem _ typed (by simp)
      exact .of_ok (by rw [decodeValue, data]; rfl) trivial id
  | gauge =>
      have data : entry.scalar = .ok entry.data := dataOf_of_mem _ typed (by simp)
      exact .of_ok (by rw [decodeValue, data]; rfl) trivial id
  | counterVectorSimple =>
      have rows := pieces_verdict base entry.data.toNat fun outer row wide =>
        simpleRow_verdict mapping base outer row wide
      rw [decodeValue, vectorOf_eq typed (by simp)]
      have nested := rows.bind_of_ok
        (f := fun rows => (.done (.ok (.simple rows)) : Reader MetricValue)) fun _ => rfl
      rwa [Prog.bind_assoc] at nested
  | counterVectorCombined =>
      have rows := pieces_verdict base entry.data.toNat fun outer row wide =>
        combinedRow_verdict mapping base outer row wide
      rw [decodeValue, vectorOf_eq typed (by simp)]
      have nested := rows.bind_of_ok
        (f := fun rows => (.done (.ok (.combined rows)) : Reader MetricValue)) fun _ => rfl
      rwa [Prog.bind_assoc] at nested
  | nameVector =>
      have listed := pieces_verdict base entry.data.toNat fun outer index wide =>
        nameElement_verdict mapping base outer index wide
      rw [decodeValue, nameVector, nameVectorPointer_of_type typed]
      exact listed.bind_of_ok fun _ => rfl
  | illegal => exact .of_error rfl id id
  | empty => exact .of_error rfl id id
  | symlink => exact .of_error rfl id id
  | histogramLog2 => exact .of_error rfl id id
  | ringBuffer => exact .of_error rfl id id

end Netsystem.Stats
