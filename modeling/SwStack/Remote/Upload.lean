import SwStack.Remote.JsonRequestTransfer

/-! The upload of a request. What is assembled is the request up to the offset of its client,
whatever other requests come in between, so a commit handles exactly the bytes that were sent. -/
namespace SwStack.Remote

open SwStack.Lib SwStack.Types List

variable {numbers : Numbers}

theorem nibble_lowerHexDigit : ∀ value < 16, nibble (lowerHexDigit value) = some value := by
  decide

theorem decodeHex_toHex (bytes : Bytes) : decodeHex (toHex bytes) = some bytes := by
  induction bytes with
  | nil => rfl
  | cons byte rest ih =>
    have high := nibble_lowerHexDigit (byte.toNat / 16) (by have := byte.toNat_lt; omega)
    have low := nibble_lowerHexDigit (byte.toNat % 16) (by omega)
    have joined : (byte.toNat / 16) <<< 4 ||| byte.toNat % 16 = byte.toNat := by
      rw [← Nat.shiftLeft_add_eq_or_of_lt (by omega : byte.toNat % 16 < 2 ^ 4),
        Nat.shiftLeft_eq]
      omega
    change decodeHex (lowerHexDigit (byte.toNat / 16) :: lowerHexDigit (byte.toNat % 16) ::
      toHex rest) = _
    rw [decodeHex, high, low, ih]
    simp only [Option.bind_eq_bind, Option.bind_some, joined, UInt8.ofNat_toNat, Option.pure_def]

theorem length_toHex (bytes : Bytes) : (toHex bytes).length = 2 * bytes.length := by
  induction bytes with
  | nil => rfl
  | cons byte rest ih =>
    rw [toHex, flatMap_cons, length_append, ← toHex, ih, length_cons]
    simp only [length_cons, length_nil]
    omega

/-- So much of a request is assembled. -/
def Holds (assembler : Assembler) (token encoded : Bytes) (offset touched : Nat) : Prop :=
  assembler.pending.find? token =
    some { bytes := encoded.length, data := encoded.take offset, touched }

theorem find?_prune (found : pending.find? token = some transfer)
    (timely : now - transfer.touched ≤ transferTimeout) :
    (prune now pending).find? token = some transfer := by
  rw [prune, SortedMap.find?_filter, found]
  simp [timely]

/-- A request that takes a transfer further or ends it. -/
def Disturbs (numbers : Numbers) (token : Bytes) (transfer : Pending) (request : JsonObject) :
    Prop :=
  tokenOf numbers request = token ∧
    (operationOf numbers request = ascii "$request_abort" ∨
      (operationOf numbers request = ascii "$request_chunk" ∧
        continues numbers request transfer = true) ∨
      (operationOf numbers request = ascii "$request_commit" ∧
        transfer.data.length = transfer.bytes))

theorem requestBegin_keeps (found : assembler.pending.find? token = some transfer) :
    (requestBegin numbers now request assembler).2.pending.find? token = some transfer := by
  rw [requestBegin]
  dsimp only
  split
  · exact found
  · split
    · exact found
    · dsimp only
      split
      · exact found
      · rename_i fresh
        rw [SortedMap.find?_insert, if_neg]
        · exact found
        · rintro rfl
          rw [SortedMap.contains, found] at fresh
          exact fresh rfl

theorem requestChunk_keeps (found : assembler.pending.find? token = some transfer)
    (apart : other = token → held = transfer ∧ continues numbers request transfer = false) :
    (requestChunk numbers now request other held assembler).2.pending.find? token =
      some transfer := by
  rw [requestChunk]
  split
  · exact found
  · rename_i further
    split
    · exact found
    · rw [SortedMap.find?_insert, if_neg]
      · exact found
      · intro same
        obtain ⟨rfl, stays⟩ := apart same.symm
        exact further (by simp [stays])

/-- What a request does not take further it leaves as it is. -/
theorem dispatch_keeps (found : assembler.pending.find? token = some transfer)
    (timely : now - transfer.touched ≤ transferTimeout)
    (calm : ¬ Disturbs numbers token transfer request) :
    (dispatch numbers now request assembler).2.pending.find? token = some transfer := by
  have kept := find?_prune found timely
  rw [dispatch]
  dsimp only
  split
  · exact found
  · split
    · exact requestBegin_keeps kept
    · split
      · rename_i aborts
        rw [SortedMap.find?_erase, if_neg]
        · exact kept
        · intro same
          exact calm ⟨same.symm, .inl aborts⟩
      · split
        · exact kept
        · rename_i held heldFound
          split
          · rename_i chunk
            refine requestChunk_keeps kept fun same => ?_
            subst same
            cases kept.symm.trans heldFound
            exact ⟨rfl, Bool.eq_false_iff.mpr fun further => calm ⟨rfl, .inr (.inl ⟨chunk, further⟩)⟩⟩
          · split
            · rename_i commits
              rw [requestCommit]
              split
              · exact kept
              · rename_i whole
                rw [SortedMap.find?_erase, if_neg]
                · exact kept
                · intro same
                  subst same
                  cases kept.symm.trans heldFound
                  exact calm ⟨rfl, .inr (.inr ⟨commits, not_not.mp whole⟩)⟩
            · exact kept

theorem dispatch_of_chunk
    (found : assembler.pending.find? (tokenOf numbers request) = some transfer)
    (timely : now - transfer.touched ≤ transferTimeout)
    (chunk : operationOf numbers request = ascii "$request_chunk") :
    dispatch numbers now request assembler =
      requestChunk numbers now request (tokenOf numbers request) transfer
        { assembler with pending := prune now assembler.pending } := by
  have kept := find?_prune found timely
  have transfers : isTransfer (ascii "$request_chunk") = true := by decide
  have begins : ascii "$request_chunk" ≠ ascii "$request_begin" := by decide
  have aborts : ascii "$request_chunk" ≠ ascii "$request_abort" := by decide
  rw [dispatch, chunk]
  dsimp only
  rw [if_neg (not_not_intro transfers), if_neg begins, if_neg aborts, kept]
  dsimp only
  rw [if_pos rfl]

theorem dispatch_of_commit
    (found : assembler.pending.find? (tokenOf numbers request) = some transfer)
    (timely : now - transfer.touched ≤ transferTimeout)
    (commits : operationOf numbers request = ascii "$request_commit") :
    dispatch numbers now request assembler =
      requestCommit numbers (tokenOf numbers request) transfer
        { assembler with pending := prune now assembler.pending } := by
  have kept := find?_prune found timely
  have transfers : isTransfer (ascii "$request_commit") = true := by decide
  have begins : ascii "$request_commit" ≠ ascii "$request_begin" := by decide
  have aborts : ascii "$request_commit" ≠ ascii "$request_abort" := by decide
  have chunk : ascii "$request_commit" ≠ ascii "$request_chunk" := by decide
  rw [dispatch, commits]
  dsimp only
  rw [if_neg (not_not_intro transfers), if_neg begins, if_neg aborts, kept]
  dsimp only
  rw [if_neg chunk, if_pos rfl]

theorem dispatch_refuses (found : assembler.pending.find? (tokenOf numbers request) = some transfer)
    (timely : now - transfer.touched ≤ transferTimeout)
    (chunk : operationOf numbers request = ascii "$request_chunk")
    (further : continues numbers request transfer = false) :
    (dispatch numbers now request assembler).1 = .error "Invalid JSON request chunk" ∧
      (dispatch numbers now request assembler).2.pending.find? (tokenOf numbers request) =
        some transfer := by
  rw [dispatch_of_chunk found timely chunk, requestChunk, if_pos (by simp [further])]
  exact ⟨rfl, find?_prune found timely⟩

section

variable (upload : JsonRequestUpload)

theorem operationOf_transferRequest (operation : Bytes) :
    operationOf numbers (upload.transferRequest operation) = operation := by
  rw [operationOf, JsonRequestUpload.transferRequest, value_insert, if_pos rfl, Json.toString]

theorem tokenOf_transferRequest (operation : Bytes) :
    tokenOf numbers (upload.transferRequest operation) = upload.token := by
  rw [tokenOf, JsonRequestUpload.transferRequest, value_insert, if_neg (by decide), value_insert,
    if_pos rfl, Json.toString]

theorem operationOf_chunkRequest (stop : Nat) :
    operationOf numbers (upload.chunkRequest stop) = ascii "$request_chunk" := by
  rw [operationOf, JsonRequestUpload.chunkRequest, value_insert, if_neg (by decide), value_insert,
    if_neg (by decide)]
  exact operationOf_transferRequest upload _

theorem tokenOf_chunkRequest (stop : Nat) :
    tokenOf numbers (upload.chunkRequest stop) = upload.token := by
  rw [tokenOf, JsonRequestUpload.chunkRequest, value_insert, if_neg (by decide), value_insert,
    if_neg (by decide)]
  exact tokenOf_transferRequest upload _

theorem hex_chunkRequest (stop : Nat) :
    ((upload.chunkRequest stop).value (ascii "hex")).toString numbers =
      toHex ((upload.encoded.drop upload.offset).take (stop - upload.offset)) := by
  rw [JsonRequestUpload.chunkRequest, value_insert, if_pos rfl, Json.toString]

theorem offset_chunkRequest (stop : Nat) :
    (upload.chunkRequest stop).value (ascii "offset") = .integer (Int64.ofNat upload.offset) := by
  rw [JsonRequestUpload.chunkRequest, value_insert, if_neg (by decide), value_insert, if_pos rfl]

end

/-- The client and the server at one offset: the next chunk is assembled. -/
theorem dispatch_chunkRequest {upload : JsonRequestUpload} {assembler : Assembler}
    {now touched : Nat} (bounded : upload.encoded.length ≤ maxBytes)
    (short : upload.offset < upload.encoded.length)
    (holds : Holds assembler upload.token upload.encoded upload.offset touched)
    (timely : now - touched ≤ transferTimeout) :
    ∃ after, dispatch numbers now
        (upload.chunkRequest (min upload.encoded.length (upload.offset + 1100))) assembler =
          (.ok (.answer []), after) ∧
      Holds after upload.token upload.encoded
        (min upload.encoded.length (upload.offset + 1100)) now := by
  have limit : maxBytes = 2097152 := rfl
  generalize stop_eq : min upload.encoded.length (upload.offset + 1100) = stop
  have taken : (upload.encoded.take upload.offset).length = upload.offset :=
    length_take_of_le short.le
  have size : (toHex ((upload.encoded.drop upload.offset).take
      (stop - upload.offset))).length = 2 * (stop - upload.offset) := by
    rw [length_toHex, length_take, length_drop]
    omega
  have further : continues numbers (upload.chunkRequest stop)
      ⟨upload.encoded.length, upload.encoded.take upload.offset, touched⟩ = true := by
    rw [continues, hex_chunkRequest, offset_chunkRequest]
    dsimp only
    rw [Json.toInteger, Int64.toInt_ofNat_of_lt (by omega), taken, size]
    have nonempty : toHex ((upload.encoded.drop upload.offset).take (stop - upload.offset)) ≠ [] := by
      intro empty
      rw [empty, length_nil] at size
      omega
    simp [Json.isInt, nonempty]
    omega
  have whole : upload.encoded.take upload.offset ++
      (upload.encoded.drop upload.offset).take (stop - upload.offset) =
        upload.encoded.take stop := by
    rw [← take_add]
    congr 1
    omega
  have found := (@tokenOf_chunkRequest numbers upload stop).symm ▸ holds
  rw [dispatch_of_chunk found timely (operationOf_chunkRequest upload stop), requestChunk,
    if_neg (not_not_intro further), hex_chunkRequest, decodeHex_toHex, tokenOf_chunkRequest]
  refine ⟨_, rfl, ?_⟩
  rw [Holds, SortedMap.find?_insert_self, whole]

theorem dispatch_commitRequest {upload : JsonRequestUpload} {assembler : Assembler}
    {now touched : Nat}
    (holds : Holds assembler upload.token upload.encoded upload.encoded.length touched)
    (timely : now - touched ≤ transferTimeout) :
    ∃ after, dispatch numbers now (upload.transferRequest (ascii "$request_commit")) assembler =
      (handled numbers upload.encoded, after) := by
  have found := (@tokenOf_transferRequest numbers upload (ascii "$request_commit")).symm ▸ holds
  rw [dispatch_of_commit found timely (operationOf_transferRequest upload _), requestCommit,
    if_neg (by simp), List.take_length]
  exact ⟨_, rfl⟩

theorem dispatch_beginRequest {upload : JsonRequestUpload} {assembler : Assembler} {now : Nat}
    (positive : 0 < upload.encoded.length) (bounded : upload.encoded.length ≤ maxBytes)
    (room : (prune now assembler.pending).size < 8)
    (fresh : (prune now assembler.pending).contains assembler.nextToken = false) :
    ∃ after, dispatch numbers now upload.beginRequest assembler =
        (.ok (.answer [(ascii "request_token", .string assembler.nextToken)]), after) ∧
      Holds after assembler.nextToken upload.encoded 0 now := by
  have limit : maxBytes = 2097152 := rfl
  have transfers : isTransfer (ascii "$request_begin") = true := by decide
  have begins : operationOf numbers upload.beginRequest = ascii "$request_begin" := by
    rw [operationOf, JsonRequestUpload.beginRequest, value_insert, if_neg (by decide),
      value_insert, if_pos rfl, Json.toString]
  have bytes : upload.beginRequest.value (ascii "bytes") =
      .integer (Int64.ofNat upload.encoded.length) := by
    rw [JsonRequestUpload.beginRequest, value_insert, if_pos rfl]
  have length : (Int64.ofNat upload.encoded.length).toInt = upload.encoded.length :=
    Int64.toInt_ofNat_of_lt (by omega)
  rw [dispatch, begins]
  dsimp only
  rw [if_neg (not_not_intro transfers), if_pos rfl, requestBegin, bytes]
  dsimp only
  have accepted : ¬ (¬ (Json.integer (Int64.ofNat upload.encoded.length)).isInt numbers = true ∨
      (upload.encoded.length : Int) < 1 ∨ (maxBytes : Int) < upload.encoded.length) := by
    rintro (fractional | small | large)
    · exact fractional rfl
    · omega
    · omega
  rw [Json.toInteger, length, if_neg accepted, if_neg (by omega)]
  refine ⟨_, rfl, ?_⟩
  rw [Holds, if_neg (by
    rw [Assembler.nextToken] at fresh ⊢
    rw [fresh]
    decide)]
  exact SortedMap.find?_insert_self _ _ _

/-- What an event does to a transfer that it must not take further. -/
def Event.Spares (numbers : Numbers) (token : Bytes) (transfer : Pending) : Event → Prop
  | own _ => True
  | other _ request => ¬ Disturbs numbers token transfer request

/-- An event that comes in time and leaves the transfer to its client; a transfer that begins has
room and a token of its own. -/
structure Calm (numbers : Numbers) (exchange : Exchange) (event : Event) : Prop where
  kept : ∀ transfer,
    exchange.assembler.pending.find? exchange.upload.token = some transfer →
      event.time - transfer.touched ≤ transferTimeout ∧
        event.Spares numbers exchange.upload.token transfer
  begins : exchange.upload.token = [] → event.isOwn = true →
    (prune event.time exchange.assembler.pending).size < 8 ∧
      (prune event.time exchange.assembler.pending).contains exchange.assembler.nextToken = false

/-- Events one after another, each calm. -/
def Undisturbed (numbers : Numbers) : Exchange → List Event → Prop
  | _, [] => True
  | exchange, event :: rest =>
    Calm numbers exchange event ∧ Undisturbed numbers (exchange.step numbers event) rest

/-- The chunks behind an offset. -/
def chunksFrom (encoded : Bytes) (offset : Nat) : Nat := (encoded.length - offset + 1099) / 1100

/-- The exchange of a request that is sent in chunks. -/
def Exchange.begin (encoded : Bytes) (assembler : Assembler) : Exchange :=
  { upload := { encoded, token := [], offset := 0, final := false }
    request := JsonRequestUpload.beginRequest { encoded, token := [], offset := 0, final := false }
    assembler, outcome := none }

/-- An exchange with so many requests of the client to come. -/
inductive Underway (encoded : Bytes) : Exchange → Nat → Prop where
  | beginning {assembler : Assembler} :
    Underway encoded (Exchange.begin encoded assembler) (chunksFrom encoded 0 + 2)
  | sending {token : Bytes} {assembler : Assembler} {offset touched : Nat} : token ≠ [] →
    offset < encoded.length → Holds assembler token encoded offset touched →
    Underway encoded
      { upload := { encoded, token, offset := min encoded.length (offset + 1100), final := false }
        request := JsonRequestUpload.chunkRequest { encoded, token, offset, final := false }
          (min encoded.length (offset + 1100))
        assembler, outcome := none } (chunksFrom encoded offset + 1)
  | committing {token : Bytes} {assembler : Assembler} {touched : Nat} : token ≠ [] →
    Holds assembler token encoded encoded.length touched →
    Underway encoded
      { upload := { encoded, token, offset := encoded.length, final := true }
        request := JsonRequestUpload.transferRequest
          { encoded, token, offset := encoded.length, final := false } (ascii "$request_commit")
        assembler, outcome := none } 1

/-- What the bytes of a whole request come to for its client. -/
def finished (numbers : Numbers) (encoded : Bytes) : Except Bytes Dispatched :=
  (handled numbers encoded).mapError ascii

section

variable {exchange : Exchange}

theorem Underway.left_pos (underway : Underway encoded exchange left) : 0 < left := by
  cases underway <;> omega

theorem Underway.assembled (underway : Underway encoded exchange left)
    (named : exchange.upload.token ≠ [])
    (found : exchange.assembler.pending.find? exchange.upload.token = some transfer) :
    transfer.data <+: encoded := by
  cases underway with
  | beginning => exact absurd rfl named
  | sending _ _ holds =>
    cases holds.symm.trans found
    exact take_prefix _ _
  | committing _ holds =>
    cases holds.symm.trans found
    exact take_prefix _ _

theorem underway_next (named : token ≠ []) (within : offset ≤ encoded.length)
    (holds : Holds assembler token encoded offset touched)
    (next : JsonRequestUpload.nextRequest { encoded, token, offset, final := false } =
      (request, upload)) :
    Underway encoded { upload, request, assembler, outcome := none }
      (chunksFrom encoded offset + 1) := by
  rw [JsonRequestUpload.nextRequest] at next
  dsimp only at next
  split at next
  · rename_i short
    cases next
    exact .sending named short holds
  · rename_i last
    cases next
    obtain rfl : offset = encoded.length := Nat.le_antisymm within (Nat.not_lt.mp last)
    rw [chunksFrom, Nat.sub_self]
    exact .committing named holds

theorem advance_respond {upload : JsonRequestUpload} {out : JsonObject} {token : Bytes}
    (sending : upload.final = false)
    (named : (if upload.token.isEmpty then (out.value (ascii "request_token")).toString numbers
      else upload.token) = token) (some_token : token ≠ []) :
    upload.advance numbers (respond out) =
      .ok (some (JsonRequestUpload.nextRequest { upload with token }).1,
        (JsonRequestUpload.nextRequest { upload with token }).2) := by
  have succeeded : (respond out).value (ascii "ok") = .boolean true := by
    rw [respond, value_insert, if_neg (by decide), value_insert, if_pos rfl]
  have data : (respond out).value (ascii "data") = .object out := by
    rw [respond, value_insert, if_pos rfl]
  have nonempty : token.isEmpty = false := by
    rwa [isEmpty_eq_false_iff]
  rw [JsonRequestUpload.advance, sending, succeeded, data]
  dsimp only
  rw [named, nonempty]
  rfl

theorem handled_cases (numbers : Numbers) (data : Bytes) :
    (∃ message, handled numbers data = .error message) ∨
      ∃ request, handled numbers data = .ok (.handle request) := by
  rw [handled]
  cases parseJsonObject numbers data with
  | none => exact .inl ⟨_, rfl⟩
  | some request =>
    dsimp only
    split
    · exact .inl ⟨_, rfl⟩
    · exact .inr ⟨_, rfl⟩

/-- A request of the client gets through, and the next one is ready. -/
theorem underway_own (positive : 0 < encoded.length) (bounded : encoded.length ≤ maxBytes)
    (underway : Underway encoded exchange left) (calm : Calm numbers exchange (.own now)) :
    (1 < left → Underway encoded (exchange.step numbers (.own now)) (left - 1)) ∧
      (left = 1 → (exchange.step numbers (.own now)).outcome = Option.some
        (finished numbers encoded)) := by
  cases underway with
  | @beginning assembler =>
    obtain ⟨room, fresh⟩ := calm.begins rfl rfl
    obtain ⟨after, dispatched, holds⟩ := @dispatch_beginRequest numbers
      { encoded, token := [], offset := 0, final := false } assembler now positive bounded room fresh
    have named : assembler.nextToken ≠ [] := by
      rw [Assembler.nextToken]
      simp [ascii]
    refine ⟨fun _ => ?_, fun last => by omega⟩
    rw [Exchange.begin, Exchange.step, dispatched]
    dsimp only
    rw [Exchange.answered, @advance_respond numbers _ _ assembler.nextToken rfl (by
      rw [isEmpty_nil, if_pos rfl]
      rfl) named]
    exact underway_next named (Nat.zero_le _) holds rfl
  | @sending token assembler offset touched named short holds =>
    obtain ⟨timely, -⟩ := calm.kept _ holds
    obtain ⟨after, dispatched, further⟩ := @dispatch_chunkRequest numbers
      { encoded, token, offset, final := false } assembler now touched bounded short holds timely
    refine ⟨fun _ => ?_, fun last => ?_⟩
    · rw [Exchange.step, dispatched]
      dsimp only
      rw [Exchange.answered, @advance_respond numbers _ _ token rfl (by
        rw [isEmpty_eq_false_iff.mpr named]
        rfl) named]
      have fewer : chunksFrom encoded offset =
          chunksFrom encoded (min encoded.length (offset + 1100)) + 1 := by
        rw [chunksFrom, chunksFrom]
        omega
      rw [Nat.add_sub_cancel, fewer]
      exact underway_next named (Nat.min_le_left _ _) further rfl
    · rw [chunksFrom] at last
      omega
  | @committing token assembler touched named holds =>
    obtain ⟨timely, -⟩ := calm.kept _ holds
    obtain ⟨after, dispatched⟩ := @dispatch_commitRequest numbers
      { encoded, token, offset := encoded.length, final := false } assembler now touched holds
        timely
    refine ⟨fun more => by omega, fun _ => ?_⟩
    rw [Exchange.step, dispatched, finished]
    rcases handled_cases numbers encoded with ⟨message, same⟩ | ⟨request, same⟩
    · rw [same]
      rfl
    · rw [same]
      rfl

theorem underway_other (underway : Underway encoded exchange left)
    (calm : Calm numbers exchange (.other now request)) :
    Underway encoded (exchange.step numbers (.other now request)) left := by
  cases underway with
  | beginning => exact .beginning
  | sending named short holds =>
    obtain ⟨timely, spares⟩ := calm.kept _ holds
    exact .sending named short (dispatch_keeps holds timely spares)
  | committing named holds =>
    obtain ⟨timely, spares⟩ := calm.kept _ holds
    exact .committing named (dispatch_keeps holds timely spares)

theorem outcome_step (event : Event) (done : exchange.outcome = some result) :
    (exchange.step numbers event).outcome = some result := by
  cases event with
  | own now => rw [Exchange.step, done]; exact done
  | other now request => exact done

theorem outcome_run (done : exchange.outcome = some result) :
    (exchange.run numbers events).outcome = some result := by
  induction events generalizing exchange with
  | nil => exact done
  | cons event rest ih => exact ih (outcome_step event done)

/-- The requests of the client get through one after another, and the last one is the commit. -/
theorem underway_run (some_bytes : 0 < encoded.length)
    (bounded : encoded.length ≤ maxBytes) (underway : Underway encoded exchange left)
    (undisturbed : Undisturbed numbers exchange events) :
    (events.countP Event.isOwn < left →
      Underway encoded (exchange.run numbers events) (left - events.countP Event.isOwn)) ∧
    (left ≤ events.countP Event.isOwn →
      (exchange.run numbers events).outcome = some (finished numbers encoded)) := by
  induction events generalizing exchange left with
  | nil => exact ⟨fun _ => underway, fun spent => absurd underway.left_pos (Nat.not_lt.mpr spent)⟩
  | cons event rest ih =>
    obtain ⟨calm, later⟩ := undisturbed
    have positive := underway.left_pos
    change (_ → Underway encoded ((exchange.step numbers event).run numbers rest) _) ∧
      (_ → ((exchange.step numbers event).run numbers rest).outcome = _)
    cases event with
    | other now request =>
      have same : (Event.other now request :: rest).countP Event.isOwn =
          rest.countP Event.isOwn := countP_cons_of_neg (by simp [Event.isOwn])
      rw [same]
      exact ih (underway_other underway calm) later
    | own now =>
      have more : (Event.own now :: rest).countP Event.isOwn =
          rest.countP Event.isOwn + 1 := countP_cons_of_pos rfl
      obtain ⟨goes, ends⟩ := underway_own some_bytes bounded underway calm
      rw [more]
      by_cases last : left = 1
      · exact ⟨fun few => by omega, fun _ => outcome_run (ends last)⟩
      · obtain ⟨sends, finishes⟩ := ih (goes (by omega)) later
        refine ⟨fun few => ?_, fun enough => finishes (by omega)⟩
        rw [(by omega : left - (rest.countP Event.isOwn + 1) =
          left - 1 - rest.countP Event.isOwn)]
        exact sends (by omega)

end

end SwStack.Remote
