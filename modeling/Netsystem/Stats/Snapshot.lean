import Netsystem.Stats.Quiet
import Mathlib.Tactic.Cases

/-!
# Snapshots under a running writer

The writer of the segment updates the directory as `in_progress := nonzero`, stores, `epoch += 1`,
`in_progress := 0`. Its steps and the reader's loads are interleaved in one sequentially
consistent order: before each load the writer may take any number of steps (`interleaved`).

`with_published_directory` accepts when two header copies show the same epoch and no write in
progress. The closing copy loads `epoch` before `in_progress`, so an update that is unfinished at
the first load and over at the second goes unnoticed: `names_not_snapshot` is such a run. Where no
closing copy is overtaken in this way (`careful`), every accepted value is the decoding of one
quiescent state of the run: `careful_snapshot`.
-/

namespace Netsystem.Stats

open Prog

/-! ## The writer -/

/-- Where the writer is in its update, with the nonzero mark it stored in `in_progress`. -/
inductive Phase : Type where
  | idle
  | writing (mark : { mark : UInt64 // mark ≠ 0 })
  | published (mark : { mark : UInt64 // mark ≠ 0 })
  deriving DecidableEq

/-- The shared memory and the state of its writer. `published` counts the epochs published. -/
structure World : Type where
  version : UInt64
  base : UInt64
  epoch : UInt64
  phase : Phase
  rest : Bytes
  published : Nat
  deriving DecidableEq

namespace World

/-- The `in_progress` word. -/
def inProgress (world : World) : UInt64 :=
  match world.phase with
  | .idle => 0
  | .writing mark => mark
  | .published mark => mark

/-- The mapping: the four header words that no data store touches, then the rest, which starts
with the directory pointer. -/
def bytes (world : World) : Bytes :=
  leBytes 8 world.version.toNat ++ (leBytes 8 world.base.toNat ++ (leBytes 8 world.epoch.toNat ++
    (leBytes 8 world.inProgress.toNat ++ world.rest)))

/-- A state between two complete updates. -/
def Quiescent (world : World) : Prop := world.phase = .idle

instance (world : World) : Decidable world.Quiescent :=
  inferInstanceAs (Decidable (world.phase = .idle))

end World

/-- One step of the writer. -/
inductive Move : Type where
  | begin (mark : { mark : UInt64 // mark ≠ 0 })
  | store (offset : Nat) (patch : Bytes)
  | publish
  | finish

/-- The writer's step, where it may take it. -/
def World.apply (world : World) (move : Move) : Option World :=
  match move, world.phase with
  | .begin mark, .idle => some { world with phase := .writing mark }
  | .store offset patch, .writing _ =>
      if offset + patch.length ≤ world.rest.length then
        some { world with rest := splice world.rest offset patch }
      else none
  | .publish, .writing mark =>
      some { world with
        epoch := world.epoch + 1
        phase := .published mark
        published := world.published + 1 }
  | .finish, .published _ => some { world with phase := .idle }
  | _, _ => none

/-- `later` is reached from `world` by steps of the writer. -/
abbrev Later : World → World → Prop :=
  Relation.ReflTransGen fun world later => ∃ move, world.apply move = some later

/-- A count that grows with every update begun and every epoch published. -/
def World.progress (world : World) : Nat :=
  match world.phase with
  | .writing _ => 2 * world.published + 1
  | _ => 2 * world.published

/-- What every step of the writer leaves alone, and how it moves the count. -/
structure Advance (world next : World) : Prop where
  version : next.version = world.version
  base : next.base = world.base
  length : next.rest.length = world.rest.length
  progress : world.progress ≤ next.progress
  leaves : world.Quiescent → world.progress < next.progress

theorem advance_of_apply {world next : World} {move : Move}
    (step : world.apply move = some next) : Advance world next := by
  unfold World.apply at step
  split at step
  · next mark phase =>
      cases step
      exact ⟨rfl, rfl, rfl, by simp [World.progress, phase], fun _ =>
        by simp [World.progress, phase]⟩
  · next offset patch mark phase =>
      split at step
      · next inside =>
          cases step
          exact ⟨rfl, rfl, length_splice inside, by simp [World.progress, phase],
            fun quiescent => by simp [World.Quiescent, phase] at quiescent⟩
      · cases step
  · next mark phase =>
      cases step
      exact ⟨rfl, rfl, rfl, by simp only [World.progress, phase]; omega,
        fun quiescent => by simp [World.Quiescent, phase] at quiescent⟩
  · next mark phase =>
      cases step
      exact ⟨rfl, rfl, rfl, by simp [World.progress, phase],
        fun quiescent => by simp [World.Quiescent, phase] at quiescent⟩
  · cases step

/-- Along the writer's steps the fixed words stay, the size stays and the count does not fall. -/
theorem Later.fixed {world later : World} (path : Later world later) :
    later.version = world.version ∧ later.base = world.base ∧
      later.rest.length = world.rest.length ∧ world.progress ≤ later.progress := by
  induction path with
  | refl => exact ⟨rfl, rfl, rfl, Nat.le_refl _⟩
  | tail _ step ih =>
      obtain ⟨move, step⟩ := step
      obtain ⟨version, base, length, progress⟩ := ih
      have advance := advance_of_apply step
      exact ⟨advance.version.trans version, advance.base.trans base,
        advance.length.trans length, progress.trans advance.progress⟩

/-- Out of a quiescent state the count stands still only where the writer does. -/
theorem Later.eq_of_progress {world later : World} (path : Later world later)
    (quiescent : world.Quiescent) (still : later.progress ≤ world.progress) : later = world := by
  rcases Relation.ReflTransGen.cases_head path with same | ⟨next, ⟨move, step⟩, rest⟩
  · exact same.symm
  · have grown := (advance_of_apply step).leaves quiescent
    have kept := (Later.fixed rest).2.2.2
    omega

theorem World.length_bytes (world : World) : world.bytes.length = 32 + world.rest.length := by
  simp only [World.bytes, List.length_append, length_leBytes]
  omega

theorem World.leNat_version (world : World) :
    leNat (window world.bytes 0 8) = world.version.toNat :=
  leNat_window_u64 [] _ world.version

theorem World.leNat_base (world : World) :
    leNat (window world.bytes 8 8) = world.base.toNat := by
  have word := leNat_window_u64 (leBytes 8 world.version.toNat) (leBytes 8 world.epoch.toNat ++
    (leBytes 8 world.inProgress.toNat ++ world.rest)) world.base
  simpa [World.bytes] using word

theorem World.leNat_epoch (world : World) :
    leNat (window world.bytes 16 8) = world.epoch.toNat := by
  have word := leNat_window_u64 (leBytes 8 world.version.toNat ++ leBytes 8 world.base.toNat)
    (leBytes 8 world.inProgress.toNat ++ world.rest) world.epoch
  simpa [World.bytes] using word

theorem World.leNat_inProgress (world : World) :
    leNat (window world.bytes 24 8) = world.inProgress.toNat := by
  have word := leNat_window_u64 (leBytes 8 world.version.toNat ++ (leBytes 8 world.base.toNat ++
    leBytes 8 world.epoch.toNat)) world.rest world.inProgress
  simpa [World.bytes] using word

/-- The `in_progress` word reads zero exactly in the quiescent states. -/
theorem World.inProgress_eq_zero_iff (world : World) :
    world.inProgress.toNat = 0 ↔ world.Quiescent := by
  have marked : ∀ mark : { mark : UInt64 // mark ≠ 0 }, mark.val.toNat ≠ 0 := fun mark zero =>
    mark.property (UInt64.toNat_inj.mp zero)
  unfold World.inProgress World.Quiescent
  cases world.phase with
  | idle => simp
  | writing mark => simp [marked mark]
  | published mark => simp [marked mark]

/-! ## The interleaved scene -/

/-- The world, the states that the run left behind, and what the header copies of the current
attempt have seen: the epoch of the opening copy with the number of epochs published by then, and
whether the closing copy has loaded that same epoch although an update is unfinished or was
published since. -/
structure Scene : Type where
  world : World
  past : List World
  openedEpoch : UInt64
  openedAt : Nat
  stale : Bool

namespace Scene

def start (world : World) : Scene where
  world := world
  past := []
  openedEpoch := 0
  openedAt := 0
  stale := false

/-- Every state of the run so far. -/
def trail (scene : Scene) : List World := scene.world :: scene.past

/-- The scene after one step of the writer. -/
def after (scene : Scene) (world : World) : Scene :=
  { scene with world := world, past := scene.world :: scene.past }

/-- What a load at `site` records. -/
def observe (scene : Scene) : Site → Scene
  | .header .opening .epoch =>
      { scene with openedEpoch := scene.world.epoch, openedAt := scene.world.published }
  | .header .closing .epoch =>
      { scene with stale := decide (scene.world.epoch = scene.openedEpoch ∧
        ¬ (scene.world.Quiescent ∧ scene.world.published = scene.openedAt)) }
  | _ => scene

@[simp] theorem observe_world (scene : Scene) (site : Site) :
    (scene.observe site).world = scene.world := by
  unfold observe
  split <;> rfl

@[simp] theorem observe_past (scene : Scene) (site : Site) :
    (scene.observe site).past = scene.past := by
  unfold observe
  split <;> rfl

@[simp] theorem observe_trail (scene : Scene) (site : Site) :
    (scene.observe site).trail = scene.trail := by
  simp [trail]

/-- Only a copy of the epoch is recorded. -/
theorem observe_of_ne_epoch (scene : Scene) {copy : HeaderCopy} {word : HeaderWord}
    (other : word ≠ .epoch) : scene.observe (.header copy word) = scene := by
  cases copy <;> cases word <;> first | rfl | exact absurd rfl other

/-- Steps of the writer. -/
abbrev Moves : Scene → Scene → Prop :=
  Relation.ReflTransGen fun scene next =>
    ∃ move world, scene.world.apply move = some world ∧ next = scene.after world

/-- Steps of the writer change the world along `Later`, extend the trail and record nothing. -/
theorem Moves.spec {scene next : Scene} (moves : Moves scene next) :
    Later scene.world next.world ∧ (∀ world ∈ scene.trail, world ∈ next.trail) ∧
      next.openedEpoch = scene.openedEpoch ∧ next.openedAt = scene.openedAt ∧
      next.stale = scene.stale := by
  induction moves with
  | refl => exact ⟨.refl, fun _ member => member, rfl, rfl, rfl⟩
  | tail _ step ih =>
      obtain ⟨move, world, step, rfl⟩ := step
      obtain ⟨path, trail, epoch, at_, stale⟩ := ih
      exact ⟨path.tail ⟨move, step⟩, fun world member => List.mem_cons_of_mem _
        (trail world member), epoch, at_, stale⟩

end Scene

open Scene

/-- Every interleaving: before the load, any number of steps of the writer. -/
def interleaved : Handler Load (fun _ => Bytes) Scene := fun load scene answer next =>
  ∃ mid, Moves scene mid ∧ load.offset + load.width ≤ mid.world.bytes.length ∧
    answer = window mid.world.bytes load.offset load.width ∧ next = mid.observe load.site

/-- The closing copy loads `in_progress` as zero after it loaded the opening copy's epoch in the
middle of an update. -/
def Overtaken (load : Load) (next : Scene) : Prop :=
  load.site = .header .closing .inProgress ∧ next.stale = true ∧ next.world.Quiescent

instance (load : Load) (next : Scene) : Decidable (Overtaken load next) :=
  inferInstanceAs (Decidable (_ ∧ _ ∧ _))

/-- The interleavings in which no closing copy is overtaken by an update. -/
def careful : Handler Load (fun _ => Bytes) Scene := fun load scene answer next =>
  interleaved load scene answer next ∧ ¬ Overtaken load next

/-- Whenever `call` accepts a value, the value is what `call` returns on some quiescent state of
the run. -/
def SnapshotConsistent {α : Type} (handler : Handler Load (fun _ => Bytes) Scene)
    (call : Slice → Reader α) : Prop :=
  ∀ world final value,
    (call (whole world.bytes)).Runs handler (start world) (.ok value) final →
      ∃ state ∈ final.trail, state.Quiescent ∧
        (call (whole state.bytes)).exec quiet state.bytes = (.ok value, state.bytes)

/-! ## Runs of the reader -/

section Runs

variable {α : Type} {scene next : Scene}

/-- A load moves the world forward, keeps the trail, and a data load records nothing. -/
theorem careful_spec {load : Load} {answer : Bytes} (loaded : careful load scene answer next) :
    Later scene.world next.world ∧ (∀ world ∈ scene.trail, world ∈ next.trail) ∧
      answer = window next.world.bytes load.offset load.width ∧
      load.offset + load.width ≤ next.world.bytes.length := by
  obtain ⟨⟨mid, moves, inside, rfl, rfl⟩, _⟩ := loaded
  obtain ⟨path, trail, _⟩ := moves.spec
  exact ⟨by simpa using path, by simpa using trail, by simp, by simpa using inside⟩

theorem later_of_runs {p : Reader α} {out : Outcome Error α}
    (run : p.Runs careful scene out next) : Later scene.world next.world :=
  run.preserves (fun state => Later scene.world state.world)
    (fun _ _ _ _ path loaded => path.trans (careful_spec loaded).1) .refl

theorem trail_of_runs {p : Reader α} {out : Outcome Error α}
    (run : p.Runs careful scene out next) : ∀ world ∈ scene.trail, world ∈ next.trail :=
  run.preserves (fun state => ∀ world ∈ scene.trail, world ∈ state.trail)
    (fun _ _ _ _ kept loaded world member => (careful_spec loaded).2.1 world (kept world member))
    fun _ member => member

/-- While the world stands still at a quiescent state, the run is the run on that state. -/
theorem exec_of_runs {p : Reader α} {value : α} (run : p.Runs careful scene (.ok value) next)
    (quiescent : scene.world.Quiescent) (still : next.world.progress ≤ scene.world.progress) :
    next.world = scene.world ∧
      p.exec quiet scene.world.bytes = (.ok value, scene.world.bytes) := by
  induction p generalizing scene with
  | done outcome =>
      obtain ⟨ended, rfl⟩ := run
      exact ⟨rfl, by rw [exec_done, ended]⟩
  | step load rest ih =>
      obtain ⟨answer, mid, loaded, run⟩ := run
      obtain ⟨path, _, read, inside⟩ := careful_spec loaded
      have kept := (Later.fixed (later_of_runs run)).2.2.2
      have same : mid.world = scene.world := path.eq_of_progress quiescent (by omega)
      have ended := ih answer run (by rwa [same]) (by rwa [same])
      rw [same] at ended read inside
      refine ⟨ended.1, ?_⟩
      rw [exec_perform_inside inside, ← read]
      exact ended.2

/-- A word of the header copy as it stood in the world of its load. -/
theorem runs_readWord {copy : HeaderCopy} {mapping : Slice} {word : HeaderWord} {value : Nat}
    (run : (readWord copy mapping word).Runs careful scene (.ok value) next) :
    ∃ mid, Moves scene mid ∧ next = mid.observe (.header copy word) ∧
      value = leNat (window next.world.bytes (mapping.offset + word.offset) 8) ∧
      ¬ Overtaken ⟨.header copy word, mapping.offset + word.offset, 8⟩ next := by
  simp only [readWord, bind_eq, bind_perform, pure_eq, runs_step, runs_done] at run
  obtain ⟨answer, state, ⟨⟨mid, moves, _, rfl, rfl⟩, fresh⟩, value, rfl⟩ := run
  cases value
  exact ⟨mid, moves, rfl, by simp, fresh⟩

/-- A word other than the epoch leaves no record. -/
theorem runs_readWord_of_ne_epoch {copy : HeaderCopy} {mapping : Slice} {word : HeaderWord}
    {value : Nat} (other : word ≠ .epoch)
    (run : (readWord copy mapping word).Runs careful scene (.ok value) next) :
    Moves scene next ∧ value = leNat (window next.world.bytes (mapping.offset + word.offset) 8) ∧
      ¬ Overtaken ⟨.header copy word, mapping.offset + word.offset, 8⟩ next := by
  obtain ⟨mid, moves, rfl, read⟩ := runs_readWord run
  rw [observe_of_ne_epoch _ other] at read ⊢
  exact ⟨moves, read⟩

theorem runs_validateVersion {header : SharedHeader}
    (run : (lift header.validateVersion).Runs careful scene (.ok ()) next) :
    header.version = STAT_SEGMENT_VERSION ∧ next = scene := by
  unfold SharedHeader.validateVersion at run
  split at run
  · next valid => exact ⟨valid, run.2⟩
  · cases run.1

/-- The five loads of a header copy, one after the other. -/
theorem runs_readHeader {copy : HeaderCopy} {mapping : Slice} {header : SharedHeader}
    (run : (readHeader copy mapping).Runs careful scene (.ok header) next) :
    sizeOfSharedHeader ≤ mapping.length ∧ ∃ first second third fourth,
      (readWord copy mapping .version).Runs careful scene (.ok header.version) first ∧
      (readWord copy mapping .base).Runs careful first (.ok header.base) second ∧
      (readWord copy mapping .epoch).Runs careful second (.ok header.epoch) third ∧
      (readWord copy mapping .inProgress).Runs careful third (.ok header.inProgress) fourth ∧
      (readWord copy mapping .directoryVector).Runs careful fourth
        (.ok header.directoryVector) next := by
  by_cases long : sizeOfSharedHeader ≤ mapping.length
  · simp only [readHeader, Slice.get_of_le _ (Nat.zero_le _) long, bind_eq, pure_eq,
      runs_bind_ok, runs_done] at run
    obtain ⟨_, first, version, _, second, base, _, third, epoch, _, fourth, progress, _,
      _, vector, copied, rfl⟩ := run
    cases copied
    exact ⟨long, first, second, third, fourth, version, base, epoch, progress, vector⟩
  · simp only [readHeader, Slice.get_of_lt _ _ (Nat.not_le.mp long)] at run
    cases run.1

/-- What the opening copy records: the epoch of a world `read`, then the `in_progress` word of a
world `marked`. -/
theorem runs_readHeader_opening {header : SharedHeader}
    (run : (readHeader .opening (whole scene.world.bytes)).Runs careful scene (.ok header) next) :
    sizeOfSharedHeader ≤ scene.world.bytes.length ∧
      ∃ read marked : World, Later scene.world read ∧
      Later read marked ∧ Later marked next.world ∧ header.version = marked.version.toNat ∧
      header.base = marked.base.toNat ∧ header.inProgress = marked.inProgress.toNat ∧
      header.directoryVector = leNat (window next.world.bytes 32 8) ∧
      header.epoch = read.epoch.toNat ∧ next.openedEpoch = read.epoch ∧
      next.openedAt = read.published ∧ marked ∈ next.trail := by
  obtain ⟨long, first, second, third, fourth, version, base, epoch, progress, vector⟩ :=
    runs_readHeader run
  obtain ⟨movesVersion, version, _⟩ := runs_readWord_of_ne_epoch (by decide) version
  obtain ⟨movesBase, base, _⟩ := runs_readWord_of_ne_epoch (by decide) base
  obtain ⟨read, movesEpoch, rfl, epoch, _⟩ := runs_readWord epoch
  obtain ⟨movesMark, progress, _⟩ := runs_readWord_of_ne_epoch (by decide) progress
  obtain ⟨movesVector, vector, _⟩ := runs_readWord_of_ne_epoch (by decide) vector
  obtain ⟨toVersion, _⟩ := movesVersion.spec
  obtain ⟨toBase, _⟩ := movesBase.spec
  obtain ⟨toEpoch, _⟩ := movesEpoch.spec
  obtain ⟨toMark, _, opened, openedAt, _⟩ := movesMark.spec
  obtain ⟨toVector, trail, openedThen, openedAtThen, _⟩ := movesVector.spec
  rw [observe_world] at toMark
  have sinceVersion := Later.fixed (toBase.trans (toEpoch.trans toMark))
  have sinceBase := Later.fixed (toEpoch.trans toMark)
  exact ⟨long, read.world, fourth.world, toVersion.trans (toBase.trans toEpoch), toMark, toVector,
    (version.trans (World.leNat_version _)).trans (by rw [sinceVersion.1]),
    (base.trans (World.leNat_base _)).trans (by rw [sinceBase.2.1]),
    progress.trans (World.leNat_inProgress _), vector, epoch.trans (World.leNat_epoch _),
    openedThen.trans opened, openedAtThen.trans openedAt, trail _ (List.mem_cons_self ..)⟩

/-- What the closing copy of a careful run says: if it shows the epoch of the opening copy and no
write in progress, then its epoch was loaded in a quiescent world since which nothing was
published. -/
theorem runs_readHeader_closing {mapping : Bytes} {header : SharedHeader}
    (run : (readHeader .closing (whole mapping)).Runs careful scene (.ok header) next)
    (same : header.epoch = scene.openedEpoch.toNat) (settled : header.inProgress = 0) :
    ∃ read : World, Later scene.world read ∧ Later read next.world ∧ read.Quiescent ∧
      read.published = scene.openedAt := by
  obtain ⟨_, first, second, third, fourth, version, base, epoch, progress, vector⟩ :=
    runs_readHeader run
  obtain ⟨movesVersion, _⟩ := runs_readWord_of_ne_epoch (by decide) version
  obtain ⟨movesBase, _⟩ := runs_readWord_of_ne_epoch (by decide) base
  obtain ⟨read, movesEpoch, rfl, epoch, _⟩ := runs_readWord epoch
  obtain ⟨movesMark, progress, fresh⟩ := runs_readWord_of_ne_epoch (by decide) progress
  obtain ⟨movesVector, _⟩ := runs_readWord_of_ne_epoch (by decide) vector
  obtain ⟨toVersion, _, openedVersion, openedAtVersion, _⟩ := movesVersion.spec
  obtain ⟨toBase, _, openedBase, openedAtBase, _⟩ := movesBase.spec
  obtain ⟨toEpoch, _, openedEpoch, openedAtEpoch, _⟩ := movesEpoch.spec
  obtain ⟨toMark, _, _, _, stale⟩ := movesMark.spec
  obtain ⟨toVector, _⟩ := Moves.spec movesVector
  have quiescent : fourth.world.Quiescent := by
    rw [← World.inProgress_eq_zero_iff, ← World.leNat_inProgress]
    exact progress.symm.trans settled
  have known : read.world.epoch = read.openedEpoch := by
    rw [openedEpoch, openedBase, openedVersion, ← UInt64.toNat_inj, ← same, epoch]
    exact (World.leNat_epoch _).symm
  have unstale : fourth.stale ≠ true := fun raised => fresh ⟨rfl, raised, quiescent⟩
  rw [stale] at unstale
  simp only [observe, known, true_and, ne_eq, decide_eq_true_eq, not_not] at unstale
  refine ⟨read.world, toVersion.trans (toBase.trans toEpoch), toMark.trans toVector,
    unstale.1, ?_⟩
  rw [unstale.2, openedAtEpoch, openedAtBase, openedAtVersion]

/-- Data loads leave the records of the header copies alone. -/
theorem opened_of_runs {p : Reader α} {out : Outcome Error α}
    (confined : p.Performs Load.OnData) (run : p.Runs careful scene out next) :
    next.openedEpoch = scene.openedEpoch ∧ next.openedAt = scene.openedAt := by
  refine run.preserves_of_performs (fun state =>
    state.openedEpoch = scene.openedEpoch ∧
      state.openedAt = scene.openedAt) ?_ confined ⟨rfl, rfl⟩
  rintro load state answer after onData ⟨epoch, at_⟩ ⟨⟨mid, moves, _, _, rfl⟩, _⟩
  obtain ⟨_, _, epochKept, atKept, _⟩ := moves.spec
  rw [show load.site = .data from onData]
  exact ⟨epochKept.trans epoch, atKept.trans at_⟩

end Runs

/-! ## Accepted attempts -/

section Attempts

variable {α : Type} {decode : Decoder α} {operation : String}

/-- What an accepted attempt saw: from the opening `in_progress` load to the closing `epoch` load
the world stood still at a quiescent state, so the attempt is the one on that state. -/
theorem exec_of_accepted {scene opened resolved decoded final : Scene}
    {header closing : SharedHeader} {directory : PublishedVector} {value : α}
    (onData : ∀ mapping base directory, (decode mapping base directory).Performs Load.OnData)
    (opening : (readHeader .opening (whole scene.world.bytes)).Runs careful scene
      (.ok header) opened)
    (version : header.version = STAT_SEGMENT_VERSION) (settled : header.inProgress = 0)
    (resolving : (PublishedVector.resolve (whole scene.world.bytes) header.base
      header.directoryVector sizeOfDirectoryEntry).Runs careful opened (.ok directory) resolved)
    (decoding : (decode (whole scene.world.bytes) header.base directory).Runs careful resolved
      (.ok value) decoded)
    (reclosing : (readHeader .closing (whole scene.world.bytes)).Runs careful decoded
      (.ok closing) final)
    (idle : closing.inProgress = 0) (same : closing.epoch = header.epoch) :
    ∃ state ∈ final.trail, state.Quiescent ∧ ∀ attempts,
      (publishedAttempts (whole state.bytes) operation decode (attempts + 1)).exec quiet
        state.bytes = (.ok value, state.bytes) := by
  obtain ⟨long, read, marked, toRead, toMark, toVector, versionEq, baseEq, markEq, vectorEq,
    epochEq, openedEpoch, openedAt, member⟩ := runs_readHeader_opening opening
  have quiescent : marked.Quiescent := by
    rw [← World.inProgress_eq_zero_iff, ← markEq, settled]
  obtain ⟨resolvedEpoch, resolvedAt⟩ := opened_of_runs PublishedVector.performs_resolve resolving
  obtain ⟨decodedEpoch, decodedAt⟩ := opened_of_runs (onData _ _ _) decoding
  obtain ⟨last, toLast, _, lastQuiescent, lastAt⟩ := runs_readHeader_closing reclosing
    (by rw [same, epochEq, decodedEpoch, resolvedEpoch, openedEpoch]) idle
  -- the count of progress is the same at `read` and at `last`, hence everywhere between
  have toResolved := later_of_runs resolving
  have toDecoded := later_of_runs decoding
  have grown := (Later.fixed toMark).2.2.2
  have openedStill := (Later.fixed (toResolved.trans (toDecoded.trans toLast))).2.2.2
  have resolvedStill := (Later.fixed (toDecoded.trans toLast)).2.2.2
  have decodedStill := (Later.fixed toLast).2.2.2
  have bound : last.progress ≤ marked.progress := by
    have atRead : 2 * read.published ≤ read.progress := by
      unfold World.progress
      split <;> omega
    have atLast : last.progress = 2 * last.published := by
      simp only [World.progress, show last.phase = .idle from lastQuiescent]
    rw [lastAt, decodedAt, resolvedAt, openedAt] at atLast
    omega
  have openedSame : opened.world = marked := Later.eq_of_progress toVector quiescent (by omega)
  have length : whole scene.world.bytes = whole marked.bytes := by
    have kept := (Later.fixed (toRead.trans toMark)).2.2.1
    simp only [whole, World.length_bytes, kept]
  obtain ⟨resolvedSame, resolves⟩ := exec_of_runs resolving (by rwa [openedSame])
    (by rw [openedSame]; omega)
  obtain ⟨decodedSame, decodes⟩ := exec_of_runs decoding (by rwa [resolvedSame, openedSame])
    (by rw [resolvedSame, openedSame]; omega)
  rw [openedSame] at resolves vectorEq resolvedSame
  rw [resolvedSame] at decodes
  rw [length] at resolves decodes
  have header_base : (headerAt marked.bytes).base = header.base := by
    rw [headerAt, World.leNat_base, baseEq]
  have header_vector : (headerAt marked.bytes).directoryVector = header.directoryVector :=
    vectorEq.symm
  have ready : Ready marked.bytes := {
    long := by
      have kept := congrArg Slice.length length
      rw [whole_length, whole_length] at kept
      rwa [← kept]
    version := by rw [headerAt, World.leNat_version, ← versionEq, version]
    settled := by
      rw [headerAt, World.leNat_inProgress, World.inProgress_eq_zero_iff]
      exact quiescent }
  refine ⟨marked, trail_of_runs reclosing _ (trail_of_runs decoding _ (trail_of_runs resolving _
    member)), quiescent, fun attempts => ?_⟩
  rw [exec_publishedAttempts ready attempts (by rw [header_base, header_vector]; exact resolves),
    header_base]
  exact decodes

/-- Induction on the attempts left: a rejected attempt hands a longer trail to the next. -/
theorem publishedAttempts_consistent
    (onData : ∀ mapping base directory, (decode mapping base directory).Performs Load.OnData)
    (attempts : Nat) {mapping : Slice} {scene final : Scene} {value : α}
    (covers : mapping = whole scene.world.bytes)
    (run : (publishedAttempts mapping operation decode attempts).Runs careful scene (.ok value)
      final) :
    ∃ state ∈ final.trail, state.Quiescent ∧ ∀ attempts,
      (publishedAttempts (whole state.bytes) operation decode (attempts + 1)).exec quiet
        state.bytes = (.ok value, state.bytes) := by
  induction attempts generalizing scene with
  | zero => cases run.1
  | succ attempts ih =>
      have later : ∀ {β : Type} {p : Reader β} {out : Outcome Error β} {next : Scene},
          p.Runs careful scene out next → mapping = whole next.world.bytes := by
        intro β p out next run
        have kept := (Later.fixed (later_of_runs run)).2.2.1
        simp only [covers, whole, World.length_bytes, kept]
      simp only [publishedAttempts, bind_eq, runs_bind_ok] at run
      obtain ⟨header, opened, opening, _, checked, valid, run⟩ := run
      obtain ⟨version, rfl⟩ := runs_validateVersion valid
      split at run
      · exact ih (later opening) run
      · next settled =>
          simp only [runs_bind_ok] at run
          obtain ⟨directory, resolved, resolving, read, decoded, decoding, closing, closed,
            reclosing, _, rechecked, revalid, run⟩ := run
          obtain ⟨_, rfl⟩ := runs_validateVersion revalid
          split at run
          · next accepted =>
              obtain ⟨same, rfl⟩ := run
              cases same
              subst covers
              exact exec_of_accepted onData opening version
                (by simpa [SharedHeader.isWriteInProgress] using settled) resolving decoding
                reclosing (by simpa [SharedHeader.isWriteInProgress] using accepted.1) accepted.2
          · refine ih ?_ run
            have path := (later_of_runs opening).trans ((later_of_runs resolving).trans
              ((later_of_runs decoding).trans (later_of_runs reclosing)))
            have kept := (Later.fixed path).2.2.1
            simp only [covers, whole, World.length_bytes, kept]

/-- In a careful run, what `with_published_directory` accepts is the decoding of one quiescent
state. -/
theorem withPublishedDirectory_consistent
    (onData : ∀ mapping base directory, (decode mapping base directory).Performs Load.OnData) :
    SnapshotConsistent careful fun mapping => withPublishedDirectory mapping operation
      decode := by
  intro world final value run
  have covers : whole world.bytes = whole (start world).world.bytes := rfl
  have attempted :
      (publishedAttempts (whole world.bytes) operation decode RETRY_LIMIT).Runs careful
      (start world) (.ok value) final := run
  obtain ⟨state, member, quiescent, runs⟩ :=
    publishedAttempts_consistent onData RETRY_LIMIT covers attempted
  exact ⟨state, member, quiescent, runs 15⟩

end Attempts

/-- In every run in which no closing header copy is overtaken by an update, whatever `names` and
`read` accept is their result on one quiescent state. -/
theorem careful_snapshot (name : String) :
    SnapshotConsistent careful names ∧
      SnapshotConsistent careful fun mapping => read mapping name :=
  ⟨withPublishedDirectory_consistent fun _ _ _ => performs_decodeNames,
    withPublishedDirectory_consistent fun _ _ _ => performs_decodeNamed⟩

/-! ## Scripted runs -/

/-- A device that lets the writer take the scripted steps before each load. -/
def scripted : Device Load (fun _ => Bytes) (Scene × List (List Move)) := fun load state => do
  let mid ← (state.2.headD []).foldlM (fun scene move => (scene.world.apply move).map scene.after)
    state.1
  if load.offset + load.width ≤ mid.world.bytes.length then
    some (window mid.world.bytes load.offset load.width, (mid.observe load.site, state.2.tail))
  else none

theorem moves_of_foldlM {moves : List Move} {scene next : Scene}
    (steps : moves.foldlM (fun scene move => (scene.world.apply move).map scene.after) scene =
      some next) : Moves scene next := by
  induction moves generalizing scene with
  | nil =>
      cases steps
      exact .refl
  | cons move moves ih =>
      simp only [List.foldlM_cons, Option.bind_eq_bind, Option.bind_eq_some_iff,
        Option.map_eq_some_iff] at steps
      obtain ⟨_, ⟨world, step, rfl⟩, steps⟩ := steps
      exact .head ⟨move, world, step, rfl⟩ (ih steps)

/-- Every scripted run is an interleaving. -/
theorem scripted_sound (load : Load) (state : Scene × List (List Move)) (answer : Bytes)
    (next : Scene × List (List Move)) (loaded : scripted load state = some (answer, next)) :
    interleaved load state.1 answer next.1 := by
  simp only [scripted, Option.bind_eq_bind, Option.bind_eq_some_iff] at loaded
  obtain ⟨mid, steps, loaded⟩ := loaded
  split at loaded
  · next inside =>
      cases loaded
      exact ⟨mid, moves_of_foldlM steps, inside, rfl, rfl⟩
  · cases loaded

/-- A scripted device that stops before a closing copy is overtaken. -/
def scriptedCarefully : Device Load (fun _ => Bytes) (Scene × List (List Move)) :=
  fun load state => do
    let (answer, next) ← scripted load state
    if Overtaken load next.1 then none else some (answer, next)

theorem scriptedCarefully_sound (load : Load) (state : Scene × List (List Move)) (answer : Bytes)
    (next : Scene × List (List Move))
    (loaded : scriptedCarefully load state = some (answer, next)) :
    careful load state.1 answer next.1 := by
  simp only [scriptedCarefully, Option.bind_eq_bind, Option.bind_eq_some_iff] at loaded
  obtain ⟨⟨seen, mid⟩, load_, loaded⟩ := loaded
  split at loaded
  · cases loaded
  · next alert =>
      cases loaded
      exact ⟨scripted_sound _ _ _ _ load_, alert⟩

/-- Where a scripted careful run of `p` ends, and how many epochs it leaves published. -/
theorem careful_of_scripted {α : Type} (p : Reader α) (world : World) (script : List (List Move))
    (out : Outcome Error α) (published : Nat)
    (ended : ((p.exec scriptedCarefully (start world, script)).1,
      (p.exec scriptedCarefully (start world, script)).2.1.world.published) = (out, published))
    (answered : out ≠ .panic) :
    ∃ final, p.Runs careful (start world) out final ∧ final.world.published = published := by
  obtain ⟨rfl, rfl⟩ := Prod.mk.inj ended
  exact ⟨_, runs_of_exec scriptedCarefully_sound rfl answered, rfl⟩

/-- One directory entry with the one-letter name `letter`, at base 4096. -/
def oneEntry (letter : UInt8) : World where
  version := 2
  base := 4096
  epoch := 7
  phase := .idle
  rest := leBytes 8 (4096 + 48) ++ [1, 0, 0, 0, 0, 3, 0, 0] ++
    (leBytes 8 1 ++ leBytes 8 0 ++ letter :: List.replicate 127 0)
  published := 0

/-- The update that renames `a` to `b`, between the header copies of the first attempt. -/
def earlyUpdate : List (List Move) :=
  [[], [], [], [], [], [.begin ⟨1, by decide⟩, .store 8 [0]], [],
    [.store 32 [98], .store 8 [1], .publish, .finish]]

/-- The first attempt decodes the empty directory of the update and is rejected; the second one
accepts the name that the last quiescent state shows. -/
theorem careful_snapshot_renamed :
    (∃ rejected,
        (publishedAttempts (whole (oneEntry 97).bytes) "names" decodeNames 1).Runs careful
        (start (oneEntry 97)) (.error (.retryExhausted "names" RETRY_LIMIT)) rejected) ∧
      ∃ final, (names (whole (oneEntry 97).bytes)).Runs careful (start (oneEntry 97)) (.ok ["b"])
          final ∧ final.world.published = 1 ∧
        ∃ state ∈ final.trail, state.Quiescent ∧
          (names (whole state.bytes)).exec quiet state.bytes = (.ok ["b"], state.bytes) := by
  have rejected := careful_of_scripted (publishedAttempts (whole (oneEntry 97).bytes) "names"
    decodeNames 1) (oneEntry 97) earlyUpdate (.error (.retryExhausted "names" RETRY_LIMIT)) 1
    (by decide +kernel) nofun
  have accepted := careful_of_scripted (names (whole (oneEntry 97).bytes)) (oneEntry 97)
    earlyUpdate (.ok ["b"]) 1 (by decide +kernel) nofun
  refine ⟨rejected.imp fun _ => And.left, accepted.imp fun final ended =>
    and_assoc.mp ⟨ended, ?_⟩⟩
  exact ((careful_snapshot "a").1 (oneEntry 97) final ["b"] ∘ And.left) ended

/-! ## An overtaken closing copy -/

/-- A scripted run that accepts what no quiescent state of its trail shows. -/
theorem not_snapshot_of_scripted {α : Type} {call : Slice → Reader α} {world : World}
    {script : List (List Move)} {value : α}
    (accepted : ((call (whole world.bytes)).exec scripted (start world, script)).1 = .ok value)
    (others :
      ∀ state ∈ ((call (whole world.bytes)).exec scripted (start world, script)).2.1.trail,
      state.Quiescent → ((call (whole state.bytes)).exec quiet state.bytes).1 ≠ .ok value) :
    ¬ SnapshotConsistent interleaved call := by
  intro consistent
  have ended : (call (whole world.bytes)).exec scripted (start world, script) =
      (.ok value, ((call (whole world.bytes)).exec scripted (start world, script)).2) := by
    rw [← accepted]
  obtain ⟨state, member, quiescent, decoded⟩ :=
    consistent world _ value (runs_of_exec scripted_sound ended (by simp))
  exact others state member quiescent (congrArg Prod.fst decoded)

/-- The update that renames `a` to `b`: the writer empties the directory while it is at work. The
update begins after the opening header copy and ends between the closing copy's loads of `epoch`
and `in_progress`. -/
def renameUpdate : List (List Move) :=
  [[], [], [], [], [], [.begin ⟨1, by decide⟩, .store 8 [0]], [], [], [], [], [], [], [],
    [.store 32 [98], .store 8 [1], .publish, .finish], []]

/-- Under the update `names` accepts the empty directory, which no quiescent state shows. -/
theorem names_not_snapshot : ¬ SnapshotConsistent interleaved names := by
  have accepted : ((names (whole (oneEntry 97).bytes)).exec scripted
      (start (oneEntry 97), renameUpdate)).1 = .ok [] := by decide +kernel
  exact not_snapshot_of_scripted accepted (by decide +kernel)

end Netsystem.Stats
