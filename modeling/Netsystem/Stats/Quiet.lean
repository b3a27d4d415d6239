import Netsystem.Stats.Client
import Netsystem.Verdict

/-!
# Reads of a quiet mapping

What each function of the client yields on a mapping that nobody writes, in terms of the bytes of
the mapping. `vectorAt`, `entryAt` and `pointerAt` are the layout readings of a place in the
mapping; `VectorSound`, `VectorDefect` and `ElementInside` say when the client reads it, when the
header makes the alignment shift overflow, and when an element is in range.
-/

namespace Netsystem.Stats

open Prog

/-! ## Bytes and slices -/

/-- The byte at `index`, zero past the end. -/
def byteAt (mapping : Bytes) (index : Nat) : UInt8 := mapping.getD index 0

/-- The part of the mapping that the slice names lies inside it. -/
def Slice.Inside (slice : Slice) (mapping : Bytes) : Prop :=
  slice.offset + slice.length ≤ mapping.length

variable {mapping : Bytes}

theorem window_succ_byteAt {offset width : Nat} (inside : offset < mapping.length) :
    window mapping offset (width + 1) = byteAt mapping offset ::
      window mapping (offset + 1) width := by
  rw [window_succ inside, byteAt, List.getD_eq_getElem?_getD, List.getElem?_eq_getElem inside,
    Option.getD_some]

/-- The reader writes nothing. -/
theorem exec_quiet_state {α : Type} (p : Reader α) (mapping : Bytes) :
    (p.exec quiet mapping).2 = mapping := by
  induction p with
  | done outcome => rfl
  | step load next ih =>
      rw [exec_step, quiet]
      split
      · rfl
      · next answer after loaded =>
          split at loaded
          · cases loaded
            exact ih _
          · cases loaded

theorem mapping_of_exec {α : Type} {p : Reader α} {outcome : Outcome Error α} {final : Bytes}
    (run : p.exec quiet mapping = (outcome, final)) : final = mapping := by
  rw [← exec_quiet_state p mapping, run]

theorem exec_quiet_eq {α : Type} {p : Reader α} {outcome : Outcome Error α}
    (ended : (p.exec quiet mapping).1 = outcome) : p.exec quiet mapping = (outcome, mapping) :=
  Prod.ext ended (exec_quiet_state p mapping)

@[simp] theorem whole_offset : (whole mapping).offset = 0 := rfl

@[simp] theorem whole_length : (whole mapping).length = mapping.length := rfl

theorem Slice.get_of_le (slice : Slice) {start stop : Nat} (order : start ≤ stop)
    (bound : stop ≤ slice.length) :
    slice.get start stop = some ⟨slice.offset + start, stop - start⟩ := if_pos ⟨order, bound⟩

theorem Slice.get_of_lt (slice : Slice) (start : Nat) {stop : Nat}
    (beyond : slice.length < stop) :
    slice.get start stop = none := if_neg fun bounds => Nat.not_le.mpr beyond bounds.2

theorem exec_perform_inside {site : Site} {offset width : Nat}
    (inside : offset + width ≤ mapping.length) {α : Type} {next : Bytes → Reader α} :
    (step ⟨site, offset, width⟩ next : Reader α).exec quiet mapping =
      (next (window mapping offset width)).exec quiet mapping :=
  exec_step_of_answer (by simp only [quiet, if_pos inside])

theorem exec_byte {slice : Slice} {index : Nat} (inside : slice.Inside mapping)
    (bound : index < slice.length) :
    (slice.byte index).exec quiet mapping =
      (.ok (byteAt mapping (slice.offset + index)), mapping) := by
  have covered : slice.offset + index + 1 ≤ mapping.length := by
    simp only [Slice.Inside] at inside
    omega
  rw [Slice.byte, if_pos bound, bind_eq, bind_perform, exec_perform_inside covered,
    window_succ_byteAt (by omega)]
  rfl

theorem exec_copyFrom {slice : Slice} {index count : Nat} (inside : slice.Inside mapping)
    (bound : index + count ≤ slice.length) :
    (slice.copyFrom index count).exec quiet mapping =
      (.ok (window mapping (slice.offset + index) count), mapping) := by
  induction count generalizing index with
  | zero => simp [Slice.copyFrom]
  | succ count ih =>
      have covered : slice.offset + index < mapping.length := by
        simp only [Slice.Inside] at inside
        omega
      rw [Slice.copyFrom, bind_eq, exec_bind_of_ok (exec_byte inside (by omega)), bind_eq,
        exec_bind_of_ok (ih (by omega)), window_succ_byteAt covered]
      rfl

theorem exec_copy {slice : Slice} {size : Nat} (inside : slice.Inside mapping)
    (exact : slice.length = size) :
    (slice.copy size).exec quiet mapping = (.ok (window mapping slice.offset size), mapping) := by
  rw [Slice.copy, if_pos exact, exec_copyFrom inside (by omega), Nat.add_zero]

theorem exec_position {slice : Slice} {index count : Nat} (inside : slice.Inside mapping)
    (bound : index + count ≤ slice.length) :
    (slice.position index count).exec quiet mapping =
      (.ok (((window mapping (slice.offset + index) count).findIdx? (· == 0)).map (· + index)),
        mapping) := by
  induction count generalizing index with
  | zero => simp [Slice.position]
  | succ count ih =>
      have covered : slice.offset + index < mapping.length := by
        simp only [Slice.Inside] at inside
        omega
      rw [Slice.position, bind_eq, exec_bind_of_ok (exec_byte inside (by omega)),
        window_succ_byteAt covered, List.findIdx?_cons]
      by_cases zero : byteAt mapping (slice.offset + index) = 0
      · simp [zero]
      · rw [if_neg zero, ih (by omega), if_neg (by simpa using zero), Nat.add_assoc]
        simp [Function.comp_def, Nat.add_comm, Nat.add_left_comm]

/-! ## The header -/

/-- The header words of a mapping. -/
def headerAt (mapping : Bytes) : SharedHeader where
  version := leNat (window mapping 0 8)
  base := leNat (window mapping 8 8)
  epoch := leNat (window mapping 16 8)
  inProgress := leNat (window mapping 24 8)
  directoryVector := leNat (window mapping 32 8)

theorem exec_readWord {copy : HeaderCopy} {word : HeaderWord}
    (inside : word.offset + 8 ≤ mapping.length) :
    (readWord copy (whole mapping) word).exec quiet mapping =
      (.ok (leNat (window mapping word.offset 8)), mapping) := by
  have covered : (whole mapping).offset + word.offset + 8 ≤ mapping.length := by
    simpa [whole] using inside
  rw [readWord, bind_eq, bind_perform, exec_perform_inside covered]
  simp [whole]

theorem exec_readHeader {copy : HeaderCopy} (long : sizeOfSharedHeader ≤ mapping.length) :
    (readHeader copy (whole mapping)).exec quiet mapping = (.ok (headerAt mapping), mapping) := by
  have fits : ∀ word : HeaderWord, word.offset + 8 ≤ mapping.length := by
    intro word
    unfold sizeOfSharedHeader at long
    cases word <;> simp only [HeaderWord.offset] <;> omega
  have got := Slice.get_of_le (whole mapping) (Nat.zero_le sizeOfSharedHeader) long
  simp only [readHeader, got, bind_eq, exec_bind_of_ok (exec_readWord (fits _))]
  rfl

theorem exec_readHeader_of_short (copy : HeaderCopy)
    (short : mapping.length < sizeOfSharedHeader) :
    (readHeader copy (whole mapping)).exec quiet mapping =
      (.error (.protocol .invalidMapping), mapping) := by
  rw [readHeader, Slice.get_of_lt (whole mapping) 0 short]
  rfl

/-! ## Vectors -/

/-- The eight header bytes of the vector that `pointer` names lie inside the mapping. -/
structure HeaderInside (mapping : Bytes) (base pointer : Nat) : Prop where
  above : base ≤ pointer
  room : VECTOR_HEADER_BYTES ≤ pointer - base
  inside : pointer - base ≤ mapping.length

/-- The alignment exponent in the header of the vector at `offset`. -/
def exponentAt (mapping : Bytes) (offset : Nat) : Nat := (byteAt mapping (offset - 3)).toNat % 128

/-- The vector that `pointer` names, as `resolve` returns it. -/
def vectorAt (mapping : Bytes) (base pointer elementSize : Nat) : PublishedVector where
  dataOffset := pointer - base
  length := leNat (window mapping (pointer - base - 8) 4)
  alignment := VECTOR_MIN_ALIGN <<< exponentAt mapping (pointer - base) % 2 ^ 64
  elementSize := elementSize

/-- A header inside the mapping whose alignment exponent makes the shift overflow. -/
def VectorDefect (mapping : Bytes) (base pointer : Nat) : Prop :=
  HeaderInside mapping base pointer ∧ 64 ≤ exponentAt mapping (pointer - base)

/-- A header inside the mapping whose alignment the reader can compute. -/
def VectorSound (mapping : Bytes) (base pointer : Nat) : Prop :=
  HeaderInside mapping base pointer ∧ exponentAt mapping (pointer - base) < 64

section Resolve

variable {base pointer : Nat}

/-- With its header inside the mapping, `resolve` is down to the alignment shift. -/
theorem exec_resolve_of_inside (elementSize : Nat) (header : HeaderInside mapping base pointer) :
    (PublishedVector.resolve (whole mapping) base pointer elementSize).exec quiet mapping =
      if exponentAt mapping (pointer - base) < 64 then
        (.ok (vectorAt mapping base pointer elementSize), mapping)
      else (.panic, mapping) := by
  obtain ⟨above, room, inside⟩ := header
  have room' : 8 ≤ pointer - base := room
  have got : (whole mapping).get (pointer - base - VECTOR_HEADER_BYTES) (pointer - base) =
      some ⟨pointer - base - 8, 8⟩ := by
    rw [Slice.get_of_le (whole mapping) (Nat.sub_le _ _) inside, whole_offset,
      Nat.zero_add, Nat.sub_sub_self room]
    rfl
  have covered : (⟨pointer - base - 8, 8⟩ : Slice).Inside mapping := by
    simp only [Slice.Inside]
    omega
  have length : window mapping (pointer - base - 8) 4 =
      [byteAt mapping (pointer - base - 8 + 0), byteAt mapping (pointer - base - 8 + 1),
        byteAt mapping (pointer - base - 8 + 2), byteAt mapping (pointer - base - 8 + 3)] := by
    rw [window_succ_byteAt (by omega), window_succ_byteAt (by omega),
      window_succ_byteAt (by omega), window_succ_byteAt (by omega), window_zero]
    rfl
  have exponent : pointer - base - 8 + 5 = pointer - base - 3 := by omega
  simp only [PublishedVector.resolve, if_neg (Nat.not_lt.mpr above),
    if_neg (Nat.not_lt.mpr room), got, bind_eq]
  rw [exec_bind_of_ok (exec_byte covered (show 0 < 8 by decide)),
    exec_bind_of_ok (exec_byte covered (show 1 < 8 by decide)),
    exec_bind_of_ok (exec_byte covered (show 2 < 8 by decide)),
    exec_bind_of_ok (exec_byte covered (show 3 < 8 by decide)),
    exec_bind_of_ok (exec_byte covered (show 5 < 8 by decide))]
  simp only [exponent, shiftLeft]
  unfold exponentAt
  split
  · simp [vectorAt, length, exponentAt]
  · rfl

theorem exec_resolve_of_outside (elementSize : Nat)
    (outside : ¬ HeaderInside mapping base pointer) :
    ∃ reason, (PublishedVector.resolve (whole mapping) base pointer elementSize).exec
      quiet mapping = (.error reason, mapping) := by
  unfold PublishedVector.resolve
  by_cases before : pointer < base
  · exact ⟨_, by rw [if_pos before]; rfl⟩
  · rw [if_neg before]
    by_cases short : pointer - base < VECTOR_HEADER_BYTES
    · exact ⟨_, by simp only [if_pos short]; rfl⟩
    · have beyond : mapping.length < pointer - base := by
        by_contra fits
        exact outside ⟨by omega, by omega, by omega⟩
      have got := Slice.get_of_lt (whole mapping) (pointer - base - VECTOR_HEADER_BYTES) beyond
      exact ⟨_, by simp only [if_neg short, got]; rfl⟩

theorem resolve_verdict (mapping : Bytes) (base pointer elementSize : Nat) :
    Verdict quiet (PublishedVector.resolve (whole mapping) base pointer elementSize) mapping
      (VectorSound mapping base pointer) (VectorDefect mapping base pointer)
      (vectorAt mapping base pointer elementSize) := by
  by_cases header : HeaderInside mapping base pointer
  · have run := exec_resolve_of_inside elementSize header
    split at run
    · next small => exact .of_ok run ⟨header, small⟩ fun defect => Nat.not_le.mpr small defect.2
    · next large => exact .of_panic run (fun sound => large sound.2) ⟨header, Nat.not_lt.mp large⟩
  · obtain ⟨reason, run⟩ := exec_resolve_of_outside elementSize header
    exact .of_error run (fun sound => header sound.1) fun defect => header defect.1

end Resolve

/-! ## Elements -/

/-- Element `index` of the vector exists and its bytes lie inside the mapping, with no `usize`
overflow on the way. -/
structure ElementInside (mapping : Bytes) (vector : PublishedVector) (index : Nat) : Prop where
  bound : index < vector.length
  inside : vector.dataOffset + index * vector.elementSize + vector.elementSize ≤ mapping.length
  fits : vector.dataOffset + index * vector.elementSize + vector.elementSize < 2 ^ 64

/-- The offset of element `index`. -/
def PublishedVector.offsetOf (vector : PublishedVector) (index : Nat) : Nat :=
  vector.dataOffset + index * vector.elementSize

section Element

variable {vector : PublishedVector} {index : Nat}

theorem exec_element (element : ElementInside mapping vector index) :
    (vector.element (whole mapping) index).exec quiet mapping =
      (.ok ⟨vector.offsetOf index, vector.elementSize⟩, mapping) := by
  obtain ⟨bound, inside, fits⟩ := element
  have got : (whole mapping).get (vector.dataOffset + index * vector.elementSize)
      (vector.dataOffset + index * vector.elementSize + vector.elementSize) =
        some ⟨vector.offsetOf index, vector.elementSize⟩ := by
    rw [Slice.get_of_le (whole mapping) (Nat.le_add_right _ _) inside, whole_offset,
      Nat.zero_add, Nat.add_sub_cancel_left]
    rfl
  simp only [PublishedVector.element, if_neg (Nat.not_le.mpr bound), got]
  rw [if_neg (by omega), if_neg (by omega)]
  rfl

theorem exec_element_of_outside (outside : ¬ ElementInside mapping vector index) :
    ∃ reason, (vector.element (whole mapping) index).exec quiet mapping =
      (.error reason, mapping) := by
  unfold PublishedVector.element
  by_cases bound : index ≥ vector.length
  · exact ⟨_, by rw [if_pos bound]; rfl⟩
  · rw [if_neg bound]
    by_cases overflow : 2 ^ 64 ≤ index * vector.elementSize ∨
        2 ^ 64 ≤ vector.dataOffset + index * vector.elementSize
    · exact ⟨_, by simp only [if_pos overflow]; rfl⟩
    · by_cases wraps : 2 ^ 64 ≤ vector.dataOffset + index * vector.elementSize +
        vector.elementSize
      · exact ⟨_, by simp only [if_neg overflow, if_pos wraps]; rfl⟩
      · have beyond : mapping.length <
            vector.dataOffset + index * vector.elementSize + vector.elementSize := by
          by_contra fits
          exact outside ⟨by omega, by omega, by omega⟩
        have got := Slice.get_of_lt (whole mapping)
          (vector.dataOffset + index * vector.elementSize) beyond
        exact ⟨_, by simp only [if_neg overflow, if_neg wraps, got]; rfl⟩

theorem element_verdict :
    Verdict quiet (vector.element (whole mapping) index) mapping
      (ElementInside mapping vector index) False ⟨vector.offsetOf index, vector.elementSize⟩ := by
  by_cases inside : ElementInside mapping vector index
  · exact .of_ok (exec_element inside) inside id
  · obtain ⟨reason, run⟩ := exec_element_of_outside inside
    exact .of_error run inside id

/-- The slice of an element lies inside the mapping. -/
theorem ElementInside.slice (element : ElementInside mapping vector index) :
    (⟨vector.offsetOf index, vector.elementSize⟩ : Slice).Inside mapping := element.inside

/-- The first `size` bytes of an element as a word. -/
def wordAt (mapping : Bytes) (vector : PublishedVector) (index size : Nat) : Nat :=
  leNat (window mapping (vector.offsetOf index) size)

/-- The head of an element, copied into an array. -/
theorem exec_range_copy {element : Slice} (start size : Nat) (inside : element.Inside mapping)
    (wide : start + size ≤ element.length) :
    ((element.range start (start + size)).bind fun head => head.copy size).exec quiet mapping =
      (.ok (window mapping (element.offset + start) size), mapping) := by
  have covered : (⟨element.offset + start, size⟩ : Slice).Inside mapping := by
    simp only [Slice.Inside] at inside ⊢
    omega
  rw [Slice.range, Slice.get_of_le element (Nat.le_add_right start size) wide,
    Nat.add_sub_cancel_left]
  exact exec_copy covered rfl

theorem word_verdict {size : Nat} (wide : size ≤ vector.elementSize) :
    Verdict quiet (vector.word (whole mapping) index size) mapping
      (ElementInside mapping vector index) False (wordAt mapping vector index size) := by
  rw [PublishedVector.word, if_neg (Nat.not_lt.mpr wide)]
  refine element_verdict.bind_of_ok fun inside => ?_
  have head := exec_range_copy 0 size inside.slice (by simpa using wide)
  rw [Nat.zero_add] at head
  simp only [bind_eq]
  rw [← bind_assoc, exec_bind_of_ok head]
  rfl

end Element

/-! ## Entries -/

/-- Entry `index` of the directory. -/
def entryAt (mapping : Bytes) (directory : PublishedVector) (index : Nat) : DirectoryEntry :=
  DirectoryEntry.ofBytes (window mapping (directory.offsetOf index) sizeOfDirectoryEntry)

section Entry

variable {directory : PublishedVector} {index : Nat}

theorem readEntry_verdict (mapping : Bytes) (index : Nat)
    (size : directory.elementSize = sizeOfDirectoryEntry) :
    Verdict quiet (readEntry directory (whole mapping) index) mapping
      (ElementInside mapping directory index) False (entryAt mapping directory index) := by
  refine element_verdict.bind_of_ok fun inside => ?_
  rw [bind_eq, exec_bind_of_ok (exec_copy inside.slice size)]
  rfl

theorem lift_verdict {α : Type} [Inhabited α] {result : Except ProtocolError α} :
    Verdict quiet (lift result) mapping (∃ value, result = .ok value) False
      (result.toOption.getD default) := by
  cases result with
  | error reason =>
      have refused : (lift (.error reason) : Reader α).exec quiet mapping =
          (.error (.protocol reason), mapping) := rfl
      exact .of_error refused (by simp) id
  | ok value => exact .of_ok rfl ⟨value, rfl⟩ id

/-- The name of entry `index`, empty where the entry has no valid name. -/
def textAt (mapping : Bytes) (directory : PublishedVector) (index : Nat) : String :=
  (entryAt mapping directory index).nameText.toOption.getD default

/-- The entry at `index` exists and carries a valid name. -/
structure Named (mapping : Bytes) (directory : PublishedVector) (index : Nat) : Prop where
  inside : ElementInside mapping directory index
  valid : ∃ text, (entryAt mapping directory index).nameText = .ok text

theorem entryName_verdict (mapping : Bytes) (index : Nat)
    (size : directory.elementSize = sizeOfDirectoryEntry) :
    Verdict quiet (entryName directory (whole mapping) index) mapping
      (Named mapping directory index) False (textAt mapping directory index) :=
  ((readEntry_verdict mapping index size).bind fun _ => lift_verdict).congr
    ⟨fun named => ⟨named.1, named.2⟩, fun named => ⟨named.1, named.2⟩⟩ (by simp) fun _ => rfl

end Entry

/-! ## Attempts -/

/-- The directory that the header of the mapping names. -/
def directoryAt (mapping : Bytes) : PublishedVector :=
  vectorAt mapping (headerAt mapping).base (headerAt mapping).directoryVector sizeOfDirectoryEntry

/-- A mapping that `with_published_directory` goes on to read: a whole header of the right version
with no write in progress. -/
structure Ready (mapping : Bytes) : Prop where
  long : sizeOfSharedHeader ≤ mapping.length
  version : (headerAt mapping).version = STAT_SEGMENT_VERSION
  settled : (headerAt mapping).inProgress = 0

theorem Ready.valid (ready : Ready mapping) :
    lift (headerAt mapping).validateVersion = .done (.ok ()) := by
  rw [SharedHeader.validateVersion, if_pos ready.version, lift_ok]

theorem Ready.idle (ready : Ready mapping) : (headerAt mapping).isWriteInProgress = false := by
  simp [SharedHeader.isWriteInProgress, ready.settled]

/-- Where an attempt on a mapping that is not ready goes no further than the header: the header is
cut off, of another version, or says that the mapping is being written. -/
theorem unready_cases (unready : ¬ Ready mapping) :
    mapping.length < sizeOfSharedHeader ∨ sizeOfSharedHeader ≤ mapping.length ∧
      ((headerAt mapping).version ≠ STAT_SEGMENT_VERSION ∨
        lift (headerAt mapping).validateVersion = .done (.ok ()) ∧
          (headerAt mapping).isWriteInProgress = true) := by
  by_cases long : sizeOfSharedHeader ≤ mapping.length
  · refine .inr ⟨long, ?_⟩
    by_cases version : (headerAt mapping).version = STAT_SEGMENT_VERSION
    · refine .inr ⟨by rw [SharedHeader.validateVersion, if_pos version, lift_ok], ?_⟩
      by_contra idle
      exact unready ⟨long, version, by simpa [SharedHeader.isWriteInProgress] using idle⟩
    · exact .inl version
  · exact .inl (Nat.not_le.mp long)

variable {α : Type} {decode : Decoder α} {operation : String}

/-- On a ready mapping the first attempt decides: its closing header is its opening one. -/
theorem exec_publishedAttempts (ready : Ready mapping) {directory : PublishedVector}
    (attempts : Nat)
    (resolved : (PublishedVector.resolve (whole mapping) (headerAt mapping).base
      (headerAt mapping).directoryVector sizeOfDirectoryEntry).exec quiet mapping =
        (.ok directory, mapping)) :
    (publishedAttempts (whole mapping) operation decode (attempts + 1)).exec quiet mapping =
      (decode (whole mapping) (headerAt mapping).base directory).exec quiet mapping := by
  rw [publishedAttempts, bind_eq, exec_bind_of_ok (exec_readHeader ready.long),
    ready.valid, bind_eq, bind_ok, ready.idle, if_neg Bool.false_ne_true, bind_eq,
    exec_bind_of_ok resolved, bind_eq,
    exec_bind]
  cases decoded : (decode (whole mapping) (headerAt mapping).base directory).exec quiet
    mapping with
  | mk outcome final =>
      obtain rfl := mapping_of_exec decoded
      cases outcome with
      | ok value =>
          simp only [bind_eq]
          rw [exec_bind_of_ok (exec_readHeader ready.long), ready.valid, bind_ok,
            if_pos ⟨ready.idle, rfl⟩]
          rfl
      | error reason => rfl
      | panic => rfl
      | pending => rfl

end Netsystem.Stats
