import SwStack.EmbeddedDb.WalRoundTrip

/-! Replay of one log file. A position that holds no valid frame sends the reader
to the next magic number after it, so the reader can also start inside a torn
payload. Replay is compared with the frames that lie wholly in the kept prefix. -/
namespace SwStack.EmbeddedDb

open SwStack.Lib

variable (crc32 : Bytes → UInt32)

/-- The checks at one position. Every failing one resumes the search at the byte
after the position, so they need not be told apart. -/
def frameAt (bytes : Bytes) : Option (WalFrame × Bytes) := do
  if bytes.length < 16 ∨ bytes.take 8 ≠ walMagic then none
  let (payloadBytes, rest) ← readU32LE (bytes.drop 8)
  let (crc, rest) ← readU32LE rest
  let (payload, rest) ← Reader.take payloadBytes.toNat rest
  if crc32Bytes crc32 payload ≠ crc then none
  let frame ← decodeWalPayload payload
  pure (frame, rest)

def findNextWalMagic : Bytes → Bytes
  | [] => []
  | byte :: rest =>
    if (byte :: rest).take 8 = walMagic then byte :: rest else findNextWalMagic rest

/-- The frames handed to `applyBatchLocked_`, in order. One unit of fuel is spent
on each turn of the loop; `none` means that it ran out. -/
def replayWalFrom (maxSequence : UInt64) : Nat → Bytes → Option (List WalFrame)
  | _, [] => some []
  | 0, _ :: _ => none
  | fuel + 1, byte :: rest =>
    match frameAt crc32 (byte :: rest) with
    | none => replayWalFrom maxSequence fuel (findNextWalMagic rest)
    | some (frame, tail) =>
      if frame.sequence ≤ maxSequence then replayWalFrom maxSequence fuel tail
      else (replayWalFrom maxSequence fuel tail).map (frame :: ·)

def replayWalFile (maxSequence : UInt64) (walBytes : Bytes) : Option (List WalFrame) :=
  replayWalFrom crc32 maxSequence (walBytes.length + 1) walBytes

/-- What replay does with the bytes, without the loop's search and fuel. -/
inductive Replays (maxSequence : UInt64) : Bytes → List WalFrame → Prop where
  | finish : Replays maxSequence [] []
  | skip : frameAt crc32 (byte :: rest) = none → Replays maxSequence rest frames →
      Replays maxSequence (byte :: rest) frames
  | old : frameAt crc32 bytes = some (frame, tail) → frame.sequence ≤ maxSequence →
      Replays maxSequence tail frames → Replays maxSequence bytes frames
  | apply : frameAt crc32 bytes = some (frame, tail) → ¬ frame.sequence ≤ maxSequence →
      Replays maxSequence tail frames → Replays maxSequence bytes (frame :: frames)

variable {crc32}

theorem take_length (read : Reader.take count input = some (taken, rest)) :
    rest.length ≤ input.length := by
  simp only [Reader.take] at read
  split at read
  · cases read
    simp
  · contradiction

theorem readU32LE_length (read : readU32LE input = some (value, rest)) :
    rest.length ≤ input.length := by
  simp only [readU32LE, readNumber, Reader.bind_apply, Option.bind_eq_some_iff] at read
  obtain ⟨⟨number, afterNumber⟩, ⟨⟨taken, afterTaken⟩, took, number⟩, finished⟩ := read
  cases number
  cases finished
  exact take_length took

theorem frameAt_length (found : frameAt crc32 bytes = some (frame, tail)) :
    tail.length < bytes.length ∧ bytes.take 8 = walMagic := by
  simp only [frameAt] at found
  split at found
  · contradiction
  · rename_i header
    rw [not_or, not_lt, not_not] at header
    simp only [Option.bind_eq_bind, Option.bind_eq_some_iff, Prod.exists] at found
    obtain ⟨payloadBytes, rest₁, length, crc, rest₂, checksum, payload, rest₃, taken, found⟩ := found
    split at found
    · contradiction
    · obtain ⟨decoded, -, same⟩ := Option.bind_eq_some_iff.mp found
      cases same
      have bound₁ := readU32LE_length length
      have bound₂ := readU32LE_length checksum
      have bound₃ := take_length taken
      simp only [List.length_drop] at bound₁
      exact ⟨by omega, header.2⟩

theorem frameAt_eq_none (absent : bytes.take 8 ≠ walMagic) : frameAt crc32 bytes = none := by
  cases found : frameAt crc32 bytes with
  | none => rfl
  | some result => exact absurd (frameAt_length found).2 absent

theorem findNextWalMagic_length (bytes : Bytes) : (findNextWalMagic bytes).length ≤ bytes.length := by
  induction bytes with
  | nil => simp [findNextWalMagic]
  | cons byte rest ih =>
    simp only [findNextWalMagic]
    split
    · exact le_rfl
    · exact ih.trans (by simp)

theorem Replays.of_search (replayed : Replays crc32 maxSequence (findNextWalMagic bytes) frames) :
    Replays crc32 maxSequence bytes frames := by
  induction bytes with
  | nil => exact replayed
  | cons byte rest ih =>
    simp only [findNextWalMagic] at replayed
    split at replayed
    · exact replayed
    · rename_i absent
      exact .skip (frameAt_eq_none absent) (ih replayed)

theorem Replays.unique (left : Replays crc32 maxSequence bytes frames)
    (right : Replays crc32 maxSequence bytes others) : frames = others := by
  induction left generalizing others with
  | finish =>
    cases right with
    | finish => rfl
    | old found => cases found
    | apply found => cases found
  | skip absent _ ih =>
    cases right with
    | skip _ rest => exact ih rest
    | old found => simp [absent] at found
    | apply found => simp [absent] at found
  | old found covered _ ih =>
    cases right with
    | finish => cases found
    | skip absent => simp [absent] at found
    | old again _ rest =>
      cases found.symm.trans again
      exact ih rest
    | apply again newer =>
      cases found.symm.trans again
      exact absurd covered newer
  | apply found newer _ ih =>
    cases right with
    | finish => cases found
    | skip absent => simp [absent] at found
    | old again covered =>
      cases found.symm.trans again
      exact absurd covered newer
    | apply again _ rest =>
      cases found.symm.trans again
      rw [ih rest]

theorem replayWalFrom_terminates (enough : bytes.length < fuel) :
    ∃ frames, replayWalFrom crc32 maxSequence fuel bytes = some frames ∧
      Replays crc32 maxSequence bytes frames := by
  induction fuel generalizing bytes with
  | zero => omega
  | succ fuel ih =>
    cases bytes with
    | nil => exact ⟨[], rfl, .finish⟩
    | cons byte rest =>
      simp only [List.length_cons] at enough
      simp only [replayWalFrom]
      cases found : frameAt crc32 (byte :: rest) with
      | none =>
        have shorter := findNextWalMagic_length rest
        obtain ⟨frames, replayed, meaning⟩ := ih (show (findNextWalMagic rest).length < fuel by omega)
        exact ⟨frames, replayed, .skip found meaning.of_search⟩
      | some result =>
        obtain ⟨frame, tail⟩ := result
        have shorter := (frameAt_length found).1
        simp only [List.length_cons] at shorter
        obtain ⟨frames, replayed, meaning⟩ := ih (show tail.length < fuel by omega)
        by_cases covered : frame.sequence ≤ maxSequence
        · simp only [covered, if_true, replayed]
          exact ⟨frames, rfl, .old found covered meaning⟩
        · simp only [covered, if_false, replayed, Option.map_some]
          exact ⟨frame :: frames, rfl, .apply found covered meaning⟩

theorem replayWalFile_eq_some_iff :
    replayWalFile crc32 maxSequence bytes = some frames ↔
      Replays crc32 maxSequence bytes frames := by
  obtain ⟨replayed, computed, meaning⟩ : ∃ replayed,
      replayWalFrom crc32 maxSequence (bytes.length + 1) bytes = some replayed ∧
        Replays crc32 maxSequence bytes replayed :=
    replayWalFrom_terminates (Nat.lt_succ_self bytes.length)
  rw [replayWalFile, computed, Option.some.injEq]
  constructor
  · rintro rfl
    exact meaning
  · exact meaning.unique

end SwStack.EmbeddedDb

/-! Replay of a log cut at any byte. The frames wholly in the kept prefix are read
back; what follows them is the start of the frame the cut went through, and replay
is exact precisely when the reader finds no newer frame inside that rest. -/
namespace SwStack.EmbeddedDb

open SwStack.Lib

def frameLength (frame : WalFrame) : Nat := 16 + (writeWalPayload frame).length

/-- The frames whose last byte is among the first `kept` bytes of the file. -/
def wholeFrames : List WalFrame → Nat → List WalFrame
  | [], _ => []
  | frame :: frames, kept =>
    if frameLength frame ≤ kept then frame :: wholeFrames frames (kept - frameLength frame) else []

/-- The kept bytes after the whole frames. -/
def tornTail (frames : List WalFrame) (file : Bytes) (kept : Nat) : Bytes :=
  (file.take kept).drop ((wholeFrames frames kept).map frameLength).sum

/-- Bytes in which no valid frame above `maxSequence` starts, except inside a valid
frame at or below it, which the reader steps over whole. -/
inductive Quiet (crc32 : Bytes → UInt32) (maxSequence : UInt64) : Bytes → Prop where
  | finish : Quiet crc32 maxSequence []
  | skip : frameAt crc32 (byte :: rest) = none → Quiet crc32 maxSequence rest →
      Quiet crc32 maxSequence (byte :: rest)
  | old : frameAt crc32 bytes = some (frame, tail) → frame.sequence ≤ maxSequence →
      Quiet crc32 maxSequence tail → Quiet crc32 maxSequence bytes

theorem quiet_iff_replays : Quiet crc32 maxSequence bytes ↔ Replays crc32 maxSequence bytes [] := by
  constructor
  · intro quiet
    induction quiet with
    | finish => exact .finish
    | skip absent _ ih => exact .skip absent ih
    | old found covered _ ih => exact .old found covered ih
  · intro replayed
    generalize nothing : ([] : List WalFrame) = frames at replayed
    induction replayed with
    | finish => exact .finish
    | skip absent _ ih => exact .skip absent (ih nothing)
    | old found covered _ ih => exact .old found covered (ih nothing)
    | apply => cases nothing

def walFrameBytes (crc32 : Bytes → UInt32) (frame : WalFrame) : Bytes :=
  let payload := writeWalPayload frame
  walMagic ++ (writeU32LE (UInt32.ofNat payload.length) ++ (writeU32LE (crc32 payload) ++ payload))

@[simp] theorem length_walFrameBytes (crc32 : Bytes → UInt32) (frame : WalFrame) :
    (walFrameBytes crc32 frame).length = frameLength frame := by
  simp [walFrameBytes, frameLength, walMagic]
  omega

theorem appendWalFrame_spec (appended : appendWalFrame crc32 out frame = some file) :
    (writeWalPayload frame).length < 2 ^ 32 ∧ file = out ++ walFrameBytes crc32 frame := by
  simp only [appendWalFrame] at appended
  split at appended
  · rename_i room
    rw [← length_writeWalPayload] at room appended
    have fits : (writeWalPayload frame).length < 2 ^ 32 :=
      room.trans_lt (UInt32.ofNat (writeWalPayload frame).length).toNat_lt
    have filled : (UInt32.ofNat (writeWalPayload frame).length).toNat =
        (writeWalPayload frame).length := Nat.mod_eq_of_lt fits
    cases appended
    refine ⟨fits, ?_⟩
    simp only [walFrameBytes, filled, Nat.sub_self, List.replicate_zero, List.append_nil]
  · contradiction

theorem appendWalFrames_spec (appended : appendWalFrames crc32 frames = some file) :
    (∀ frame ∈ frames, (writeWalPayload frame).length < 2 ^ 32) ∧
      file = frames.flatMap (walFrameBytes crc32) := by
  have general : ∀ (frames : List WalFrame) (out : Bytes),
      frames.foldlM (appendWalFrame crc32) out = some file →
      (∀ frame ∈ frames, (writeWalPayload frame).length < 2 ^ 32) ∧
        file = out ++ frames.flatMap (walFrameBytes crc32) := by
    intro frames
    induction frames with
    | nil =>
      intro out folded
      cases folded
      simp
    | cons frame frames ih =>
      intro out folded
      rw [List.foldlM_cons, Option.bind_eq_bind, Option.bind_eq_some_iff] at folded
      obtain ⟨next, first, rest⟩ := folded
      obtain ⟨fits, rfl⟩ := appendWalFrame_spec first
      obtain ⟨restFits, same⟩ := ih _ rest
      refine ⟨?_, by simpa using same⟩
      intro other member
      rcases List.mem_cons.mp member with rfl | member
      · exact fits
      · exact restFits other member
  simpa using general frames [] appended

theorem writeWalPayload_ne_nil (frame : WalFrame) : (writeWalPayload frame).isEmpty = false := by
  cases payload : writeWalPayload frame with
  | nil =>
    have length := length_writeWalPayload frame
    simp only [payload, estimatedWalBytes, List.length_nil] at length
    omega
  | cons => rfl

theorem frameAt_walFrameBytes (fits : (writeWalPayload frame).length < 2 ^ 32) (rest : Bytes) :
    frameAt crc32 (walFrameBytes crc32 frame ++ rest) = some (frame, rest) := by
  have room : ¬ (walFrameBytes crc32 frame ++ rest).length < 16 := by
    simp only [List.length_append, length_walFrameBytes, frameLength]
    omega
  have magic : (walFrameBytes crc32 frame ++ rest).take 8 = walMagic := rfl
  have body : (walFrameBytes crc32 frame ++ rest).drop 8 =
      writeU32LE (UInt32.ofNat (writeWalPayload frame).length) ++
        (writeU32LE (crc32 (writeWalPayload frame)) ++ (writeWalPayload frame ++ rest)) := by
    simp [walFrameBytes, walMagic]
  have filled : (writeWalPayload frame).length =
      (UInt32.ofNat (writeWalPayload frame).length).toNat := (Nat.mod_eq_of_lt fits).symm
  simp only [frameAt, room, magic, body, ne_eq, not_true_eq_false, or_self, if_false,
    Option.bind_eq_bind, readU32LE_reads _ _, Option.bind_some, Reader.Reads.take filled _,
    crc32Bytes, writeWalPayload_ne_nil, Bool.false_eq_true, decodeWalPayload_writeWalPayload fits]
  rfl

theorem take_add_append {head tail : Bytes} (length : head.length = count) :
    (head ++ tail).take (count + extra) = head ++ tail.take extra := by
  subst length
  rw [List.take_length_add_append]

theorem wholeFrames_prefix (frames : List WalFrame) (kept : Nat) :
    ((frames.flatMap (walFrameBytes crc32)).take kept).take
        ((wholeFrames frames kept).map frameLength).sum =
      (wholeFrames frames kept).flatMap (walFrameBytes crc32) := by
  induction frames generalizing kept with
  | nil => simp [wholeFrames]
  | cons frame frames ih =>
    simp only [wholeFrames]
    split
    · rename_i whole
      obtain ⟨extra, rfl⟩ := Nat.exists_eq_add_of_le whole
      have length := length_walFrameBytes crc32 frame
      rw [Nat.add_sub_cancel_left, List.flatMap_cons, List.flatMap_cons, List.map_cons,
        List.sum_cons, take_add_append length, take_add_append length, ih]
    · simp

theorem file_take (appended : appendWalFrames crc32 frames = some file) (kept : Nat) :
    file.take kept =
      (wholeFrames frames kept).flatMap (walFrameBytes crc32) ++ tornTail frames file kept := by
  obtain ⟨-, rfl⟩ := appendWalFrames_spec appended
  rw [← wholeFrames_prefix, tornTail, List.take_append_drop]

theorem mem_of_mem_wholeFrames (member : frame ∈ wholeFrames frames kept) : frame ∈ frames := by
  induction frames generalizing kept with
  | nil => simp [wholeFrames] at member
  | cons first frames ih =>
    simp only [wholeFrames] at member
    split at member
    · rcases List.mem_cons.mp member with rfl | member
      · exact List.mem_cons_self
      · exact List.mem_cons_of_mem _ (ih member)
    · simp at member

theorem Replays.append_frames {frames : List WalFrame}
    (fits : ∀ frame ∈ frames, (writeWalPayload frame).length < 2 ^ 32)
    (replayed : Replays crc32 maxSequence tail found) :
    Replays crc32 maxSequence (frames.flatMap (walFrameBytes crc32) ++ tail)
      (frames.filter (fun frame => maxSequence < frame.sequence) ++ found) := by
  induction frames with
  | nil => simpa using replayed
  | cons frame frames ih =>
    have rest := ih fun other member => fits other (List.mem_cons_of_mem _ member)
    have here : ∀ tail, frameAt crc32 (walFrameBytes crc32 frame ++ tail) = some (frame, tail) :=
      frameAt_walFrameBytes (fits frame List.mem_cons_self)
    rw [List.flatMap_cons, List.append_assoc, List.filter_cons]
    by_cases newer : maxSequence < frame.sequence
    · rw [if_pos (decide_eq_true newer)]
      exact .apply (here _) (UInt64.not_le.mpr newer) rest
    · rw [if_neg (by simpa using newer)]
      exact .old (here _) (UInt64.not_lt.mp newer) rest

/-- Replay of a file cut at any byte ends, and applies exactly the whole frames
above `maxSequence` in file order when, and only when, the torn tail is quiet. -/
theorem replayWalFile_torn_iff (appended : appendWalFrames crc32 frames = some file) :
    replayWalFile crc32 maxSequence (file.take kept) =
        some ((wholeFrames frames kept).filter fun frame => maxSequence < frame.sequence) ↔
      Quiet crc32 maxSequence (tornTail frames file kept) := by
  have fits : ∀ frame ∈ wholeFrames frames kept, (writeWalPayload frame).length < 2 ^ 32 :=
    fun frame member => (appendWalFrames_spec appended).1 frame (mem_of_mem_wholeFrames member)
  obtain ⟨found, -, tail⟩ : ∃ found,
      replayWalFrom crc32 maxSequence ((tornTail frames file kept).length + 1)
        (tornTail frames file kept) = some found ∧
      Replays crc32 maxSequence (tornTail frames file kept) found :=
    replayWalFrom_terminates (Nat.lt_succ_self _)
  have whole := Replays.append_frames fits tail
  rw [← file_take appended] at whole
  rw [replayWalFile_eq_some_iff, quiet_iff_replays]
  constructor
  · intro exactly
    have same := whole.unique exactly
    rw [List.append_right_eq_self] at same
    exact same ▸ tail
  · intro quiet
    rw [tail.unique quiet, List.append_nil] at whole
    exact whole

def innerFrame : WalFrame := { sequence := 1, batch := [.erase [120]] }

theorem replayWalFile_torn_inner :
    replayWalFile mzCrc32 0 ((walFrameBytes mzCrc32 innerFrame ++
        walFrameBytes mzCrc32 innerFrame).take 50) =
      some ((wholeFrames [innerFrame, innerFrame] 50).filter fun frame => 0 < frame.sequence) ↔
    Quiet mzCrc32 0 (tornTail [innerFrame, innerFrame]
      (walFrameBytes mzCrc32 innerFrame ++ walFrameBytes mzCrc32 innerFrame) 50) :=
  replayWalFile_torn_iff (by decide +kernel)

/-- One put whose value is itself a frame. -/
def nestedFrame : WalFrame :=
  { sequence := 2, batch := [.put [107] (walFrameBytes mzCrc32 innerFrame) ∅] }

/-- Cut four bytes before its end, the only frame of the file is torn, yet the frame
inside its value is applied. -/
theorem replayWalFile_applies_torn_value :
    ¬ ∀ (frames : List WalFrame) (file : Bytes) (maxSequence : UInt64) (kept : Nat),
      appendWalFrames mzCrc32 frames = some file →
      replayWalFile mzCrc32 maxSequence (file.take kept) =
        some ((wholeFrames frames kept).filter fun frame => maxSequence < frame.sequence) := by
  intro exactly
  have applied : (appendWalFrames mzCrc32 [nestedFrame]).bind (fun file =>
      replayWalFile mzCrc32 0 (file.take 72)) = some [innerFrame] := by decide +kernel
  have torn : wholeFrames [nestedFrame] 72 = [] := by decide +kernel
  obtain ⟨file, appended, replayed⟩ := Option.bind_eq_some_iff.mp applied
  have claimed := exactly [nestedFrame] file 0 72 appended
  rw [replayed, torn] at claimed
  simp at claimed

/-- No end of the magic number is a beginning of it, so none stands across the end of bytes that
hold none. -/
theorem Replays.skip_silent (silent : ¬walMagic <:+: damaged)
    (next : tail = [] ∨ walMagic <+: tail) (replayed : Replays crc32 maxSequence tail frames) :
    Replays crc32 maxSequence (damaged ++ tail) frames := by
  have borders : ∀ border ∈ walMagic.tails, border <+: walMagic →
      border = [] ∨ border = walMagic := by decide
  induction damaged with
  | nil => exact replayed
  | cons byte damaged ih =>
    have rest := ih fun inside => silent (inside.trans (List.suffix_cons byte damaged).isInfix)
    refine .skip (frameAt_eq_none fun same => ?_) rest
    have starts : walMagic <+: byte :: damaged ++ tail := same ▸ List.take_prefix 8 _
    have begins := List.prefix_append (byte :: damaged) tail
    rcases le_total walMagic.length (byte :: damaged).length with inside | across
    · exact silent (List.prefix_of_prefix_length_le starts begins inside).isInfix
    obtain ⟨border, whole⟩ := List.prefix_of_prefix_length_le begins starts across
    have shared : border <+: walMagic := by
      rw [← whole, List.prefix_append_right_inj] at starts
      rcases next with rfl | next
      · exact List.prefix_nil.mp starts ▸ List.nil_prefix
      · have length := congrArg List.length whole
        rw [List.length_append] at length
        exact List.prefix_of_prefix_length_le starts next (by omega)
    rcases borders border ((List.mem_tails _ _).mpr ⟨_, whole⟩) shared with rfl | rfl
    · exact silent (whole ▸ List.append_nil _ ▸ List.infix_rfl)
    · exact List.cons_ne_nil _ _ (List.append_left_eq_self.mp whole)

/-- Each frame may follow damaged bytes, and so may the end of the file. Where no magic number
stands in them, replay loses none of the frames. -/
theorem replayWalFile_damaged {pieces : List (Bytes × WalFrame)}
    (fits : ∀ piece ∈ pieces, (writeWalPayload piece.2).length < 2 ^ 32)
    (silent : ∀ piece ∈ pieces, ¬walMagic <:+: piece.1) (silentEnd : ¬walMagic <:+: last) :
    replayWalFile crc32 maxSequence
        (pieces.flatMap (fun piece => piece.1 ++ walFrameBytes crc32 piece.2) ++ last) =
      some ((pieces.map Prod.snd).filter fun frame => maxSequence < frame.sequence) := by
  rw [replayWalFile_eq_some_iff]
  induction pieces with
  | nil => simpa using Replays.finish.skip_silent silentEnd (.inl rfl)
  | cons piece pieces ih =>
    have rest := ih (fun other member => fits other (List.mem_cons_of_mem _ member))
      fun other member => silent other (List.mem_cons_of_mem _ member)
    have read := rest.append_frames (List.forall_mem_singleton.mpr (fits piece List.mem_cons_self))
    rw [List.flatMap_singleton, ← List.filter_append] at read
    have found := read.skip_silent (silent piece List.mem_cons_self)
      (.inr ((List.prefix_append walMagic _).trans (List.prefix_append _ _)))
    rw [List.flatMap_cons, List.append_assoc, List.append_assoc]
    exact found

/-- A zero byte before each of two frames, and eight after them. -/
theorem replayWalFile_damaged_zeros :
    replayWalFile mzCrc32 0 ([([0], innerFrame), ([0], innerFrame)].flatMap
      (fun piece => piece.1 ++ walFrameBytes mzCrc32 piece.2) ++ List.replicate 8 0) =
      some [innerFrame, innerFrame] :=
  replayWalFile_damaged (by decide +kernel) (by decide +kernel) (by decide +kernel)

end SwStack.EmbeddedDb
