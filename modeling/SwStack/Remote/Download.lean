import SwStack.Remote.ResultTransfer

/-! The download of a result. A page brings something unless two thousand bytes that continue a
character follow its offset; where there is no such run the client ends with the text that was
kept, and where there is one no page leads past it. -/
namespace SwStack.Remote

open SwStack.Lib SwStack.Types List

variable {text : Bytes} {offset : Nat}

/-- Two thousand bytes at a position all continue a character. -/
def RunAt (text : Bytes) (position : Nat) : Prop :=
  0 < position ∧ position + 2000 ≤ text.length ∧
    ∀ index, position ≤ index → index < position + 2000 →
      continuesCharacter (text.getD index 0) = true

theorem characterStart_le (stop : Nat) : characterStart text offset stop ≤ stop := by
  induction stop with
  | zero => exact Nat.le_refl _
  | succ stop ih =>
    rw [characterStart]
    split
    · omega
    · exact Nat.le_refl _

theorem le_characterStart {stop : Nat} (behind : offset ≤ stop) :
    offset ≤ characterStart text offset stop := by
  induction stop with
  | zero => exact behind
  | succ stop ih =>
    rw [characterStart]
    split
    · rename_i further
      exact ih (by omega)
    · exact behind

theorem characterStart_skips {stop index : Nat} (within : stop < text.length)
    (behind : characterStart text offset stop < index) (before : index ≤ stop) :
    continuesCharacter (text.getD index 0) = true := by
  induction stop with
  | zero => omega
  | succ stop ih =>
    rw [characterStart] at behind
    split at behind
    · rename_i further
      obtain rfl | earlier := Nat.eq_or_lt_of_le before
      · exact further.2.2
      · exact ih (by omega) behind (by omega)
    · omega

theorem characterStart_lt_of_run (within : stop < text.length) (ahead : offset < position)
    (run : ∀ index, position ≤ index → index ≤ stop →
      continuesCharacter (text.getD index 0) = true) :
    characterStart text offset stop < position := by
  induction stop with
  | zero => exact Nat.zero_lt_of_lt ahead
  | succ stop ih =>
    rw [characterStart]
    split
    · exact ih (by omega) fun index after before => run index after (by omega)
    · rename_i stays
      refine Nat.lt_of_not_le fun reached => stays ⟨within, by omega, run _ reached (Nat.le_refl _)⟩

theorem pageEnd_bounds (inside : offset ≤ text.length) :
    offset ≤ pageEnd text offset ∧ pageEnd text offset ≤ text.length ∧
      pageEnd text offset ≤ offset + 2000 := by
  have upper := @characterStart_le text offset (min text.length (offset + 2000))
  have lower := @le_characterStart text offset (min text.length (offset + 2000)) (by omega)
  rw [pageEnd]
  omega

theorem pageEnd_eq_offset (inside : offset < text.length) :
    pageEnd text offset = offset ↔ RunAt text (offset + 1) := by
  constructor
  · intro stuck
    rw [pageEnd] at stuck
    have short : offset + 2000 < text.length := by
      refine Nat.lt_of_not_le fun reached => ?_
      rw [Nat.min_eq_left reached] at stuck
      obtain ⟨length, same⟩ := Nat.exists_eq_add_of_lt inside
      rw [same, characterStart, if_neg (by omega)] at stuck
      omega
    rw [Nat.min_eq_right (by omega)] at stuck
    exact ⟨by omega, by omega, fun index after before =>
      @characterStart_skips text offset (offset + 2000) index short (by omega) (by omega)⟩
  · rintro ⟨-, short, run⟩
    have above := (pageEnd_bounds (Nat.le_of_lt inside)).1
    have below : pageEnd text offset < offset + 1 := by
      rw [pageEnd, Nat.min_eq_right (by omega)]
      exact characterStart_lt_of_run (by omega) (by omega) fun index after before =>
        run index after (by omega)
    omega

theorem pageEnd_lt_of_run (run : RunAt text position) (ahead : offset < position) :
    pageEnd text offset < position := by
  obtain ⟨-, short, continues⟩ := run
  rw [pageEnd, Nat.min_eq_right (by omega)]
  by_cases near : offset + 2000 < position
  · exact Nat.lt_of_le_of_lt (characterStart_le _) near
  · exact characterStart_lt_of_run (by omega) ahead fun index after before =>
      continues index after (by omega)

theorem page_eq (bounded : text.length ≤ maxBytes) (inside : offset < text.length) :
    page text offset = (text.drop offset).take (pageEnd text offset - offset) := by
  have limits : maxBytes = 2097152 ∧ maxInt = 2147483647 := ⟨rfl, rfl⟩
  obtain ⟨after, within, -⟩ := pageEnd_bounds (Nat.le_of_lt inside)
  rw [page, SwString.mid, toInt_of_le (by omega), toInt_of_le (by omega)]
  dsimp only
  rw [if_neg (by omega), if_neg (by omega), Int.toNat_natCast, Int.toNat_natCast]

theorem take_append_page (bounded : text.length ≤ maxBytes) (inside : offset < text.length) :
    text.take offset ++ page text offset = text.take (pageEnd text offset) := by
  have after := (pageEnd_bounds (Nat.le_of_lt inside)).1
  rw [page_eq bounded inside, ← take_add]
  congr 1
  omega

theorem length_page (bounded : text.length ≤ maxBytes) (inside : offset < text.length) :
    (page text offset).length = pageEnd text offset - offset := by
  have bounds := pageEnd_bounds (Nat.le_of_lt inside)
  rw [page_eq bounded inside, length_take, length_drop]
  omega

variable {service : Results} {token : Bytes} {result : Result} {now : Nat}

/-- The text that is kept under a token. -/
def Keeps (service : Results) (token : Bytes) (result : Result) : Prop :=
  service.results.find? (fun result => decide (result.token = token)) = some result

theorem Keeps.named (keeps : Keeps service token result) : result.token = token := by
  simpa using find?_some keeps

theorem find?_pruneResults (timely : now < result.expires)
    (found : results.find? (fun result => decide (result.token = token)) = some result) :
    (pruneResults now results).find? (fun result => decide (result.token = token)) =
      some result := by
  induction results with
  | nil => cases found
  | cons first rest ih =>
    rw [pruneResults, dropWhile_cons]
    split
    · rename_i late
      rw [find?_cons] at found
      split at found
      · cases found
        simp only [decide_eq_true_eq] at late
        omega
      · exact ih found
    · exact found

theorem find?_eraseP {results : List Result} (apart : other ≠ token)
    (found : results.find? (fun result => decide (result.token = token)) = some result) :
    (results.eraseP fun result => decide (result.token = other)).find?
      (fun result => decide (result.token = token)) = some result := by
  induction results with
  | nil => cases found
  | cons first rest ih =>
    rw [eraseP_cons]
    rw [find?_cons] at found
    split at found
    · rename_i here
      have kept : first.token ≠ other := fun same =>
        apart (same.symm.trans (of_decide_eq_true here))
      rw [decide_eq_false kept, cond_false, find?_cons, here]
      exact found
    · rename_i here
      cases same : decide (first.token = other) with
      | true => exact found
      | false =>
        rw [cond_false, find?_cons, here]
        exact ih found

theorem Keeps.respondResult (keeps : Keeps service token result) (timely : now < result.expires)
    (encoded : Bytes) : Keeps (respondResult now encoded service).2 token result := by
  have kept := find?_pruneResults timely keeps
  rw [Remote.respondResult]
  split
  · exact keeps
  · split
    · exact keeps
    · dsimp only
      split
      · exact kept
      · rw [Keeps, find?_append, kept]
        rfl

/-- A read that does not come to the end of a result leaves it as it is. -/
theorem Keeps.readResult (keeps : Keeps service token result) (timely : now < result.expires)
    (spares : other = token → 0 ≤ position → position.toNat < result.text.length →
      pageEnd result.text position.toNat ≠ result.text.length) :
    Keeps (readResult now other position service).2 token result := by
  have kept := find?_pruneResults timely keeps
  rw [Remote.readResult]
  split
  · exact kept
  · rename_i natural
    split
    · exact kept
    · rename_i held found
      split
      · exact kept
      · rename_i inside
        dsimp only
        split
        · rename_i ended
          refine find?_eraseP (fun same => ?_) kept
          subst same
          cases kept.symm.trans found
          exact spares rfl (by omega) (by omega) ended
        · exact kept

theorem readResult_of_keeps (keeps : Keeps service token result) (timely : now < result.expires)
    (inside : offset < result.text.length) :
    (readResult now token offset service).1 = .ok (page result.text offset) := by
  have kept := find?_pruneResults timely keeps
  rw [readResult, if_neg (by omega), kept]
  dsimp only
  rw [Int.toNat_natCast, if_neg (by omega)]

/-- A result is kept under the token that it is served with. -/
theorem respondResult_keeps
    (served : (respondResult now encoded service).1 = .ok (.paged token bytes))
    (fresh : ∀ result ∈ pruneResults now service.results, result.token ≠ token) :
    bytes = encoded.length ∧ encoded.length ≤ maxBytes ∧ packetLimit < encoded.length ∧
      token ≠ [] ∧ Keeps (respondResult now encoded service).2 token
        { token, text := encoded, expires := now + resultTimeout } := by
  rw [Remote.respondResult] at served ⊢
  split at served
  · cases served
  · rename_i long
    split at served
    · cases served
    · rename_i bounded
      rw [if_neg bounded]
      dsimp only at served ⊢
      split at served
      · cases served
      · rename_i room
        cases served
        have absent : (pruneResults now service.results).find? (fun result =>
            decide (result.token = service.epoch ++ ascii "-" ++
              decimal ((service.nextResult + 1) % 2 ^ 64))) = none :=
          find?_eq_none.mpr fun result member => by simpa using fresh result member
        refine ⟨rfl, by omega, by omega, by simp [ascii], ?_⟩
        rw [if_neg long, if_neg room, Keeps, find?_append, absent]
        simp

/-- An event that does not read a result to its end. -/
def ResultEvent.Spares (result : Result) : ResultEvent → Prop
  | read _ token position => token = result.token → 0 ≤ position →
      position.toNat < result.text.length →
      pageEnd result.text position.toNat ≠ result.text.length
  | _ => True

/-- Events that come in time and leave the end of a result to its client. -/
def Unhurried (result : Result) (events : List ResultEvent) : Prop :=
  ∀ event ∈ events, event.time < result.expires ∧ event.Spares result

/-- A client that has a result up to an offset. -/
structure Fetching (result : Result) (exchange : ResultExchange) (offset : Nat) : Prop where
  unfinished : exchange.outcome = none
  keeps : Keeps exchange.service exchange.download.token result
  bytes : exchange.download.bytes = result.text.length
  contents : exchange.download.contents = result.text.take offset
  inside : offset < result.text.length

section

variable {exchange : ResultExchange} {events : List ResultEvent}

theorem Fetching.length (fetching : Fetching result exchange offset) :
    exchange.download.contents.length = offset := by
  rw [fetching.contents, length_take]
  exact Nat.min_eq_left (Nat.le_of_lt fetching.inside)

theorem Fetching.other (fetching : Fetching result exchange offset)
    (foreign : event.isOwn = false) (timely : event.time < result.expires)
    (spares : event.Spares result) : Fetching result (exchange.step event) offset := by
  obtain ⟨unfinished, keeps, bytes, contents, inside⟩ := fetching
  cases event with
  | own now => cases foreign
  | read now token position =>
    exact ⟨unfinished, keeps.readResult timely fun same => spares (same.trans keeps.named.symm),
      bytes, contents, inside⟩
  | respond now encoded =>
    exact ⟨unfinished, keeps.respondResult timely encoded, bytes, contents, inside⟩

theorem ResultExchange.step_own (unfinished : exchange.outcome = none) :
    exchange.step (.own now) = exchange.received
      (Remote.readResult now exchange.download.token exchange.download.contents.length
        exchange.service).2
      ((Remote.readResult now exchange.download.token exchange.download.contents.length
        exchange.service).1.bind fun chunk => exchange.download.receive chunk) := by
  rw [ResultExchange.step, unfinished]

/-- The next page is refused before a run; elsewhere it leads on, or is the last one. -/
theorem Fetching.own (fetching : Fetching result exchange offset)
    (bounded : result.text.length ≤ maxBytes) (timely : now < result.expires) :
    (RunAt result.text (offset + 1) ∧
        (exchange.step (.own now)).outcome = some (.error "Invalid RtDb result chunk")) ∨
      offset < pageEnd result.text offset ∧
        (Fetching result (exchange.step (.own now)) (pageEnd result.text offset) ∨
          pageEnd result.text offset = result.text.length ∧
            (exchange.step (.own now)).outcome = some (.ok result.text)) := by
  obtain ⟨after, within, -⟩ := pageEnd_bounds (Nat.le_of_lt fetching.inside)
  have length := length_page bounded fetching.inside
  rw [ResultExchange.step_own fetching.unfinished, fetching.length,
    readResult_of_keeps fetching.keeps timely fetching.inside, Except.bind, Download.receive,
    fetching.bytes, fetching.length]
  by_cases stuck : pageEnd result.text offset = offset
  · refine .inl ⟨(pageEnd_eq_offset fetching.inside).mp stuck, ?_⟩
    rw [if_pos (.inl (eq_nil_of_length_eq_zero (by omega)))]
    rfl
  · have some_page : page result.text offset ≠ [] := fun empty => by
      rw [empty, length_nil] at length
      omega
    have whole : exchange.download.contents ++ page result.text offset =
        result.text.take (pageEnd result.text offset) := by
      rw [fetching.contents, take_append_page bounded fetching.inside]
    refine .inr ⟨by omega, ?_⟩
    rw [if_neg (by rintro (empty | long); exacts [some_page empty, by omega]),
      ResultExchange.received]
    by_cases last : pageEnd result.text offset = result.text.length
    · refine .inr ⟨last, ?_⟩
      rw [whole, last, List.take_length, if_pos rfl]
    · left
      have short : result.text.length ≠ (result.text.take (pageEnd result.text offset)).length := by
        rw [length_take]
        omega
      refine ⟨?_, fetching.keeps.readResult timely fun _ _ _ => ?_, rfl, whole, by omega⟩
      · rw [whole, if_neg short.symm]
      · rwa [Int.toNat_natCast]

theorem Fetching.brings (fetching : Fetching result exchange offset)
    (bounded : result.text.length ≤ maxBytes) (smooth : ¬ RunAt result.text (offset + 1))
    (timely : now < result.expires) :
    ∃ chunk, (Remote.readResult now result.token exchange.download.contents.length
      exchange.service).1 = .ok chunk ∧ chunk ≠ [] := by
  refine ⟨page result.text offset, ?_, fun empty => smooth ?_⟩
  · rw [fetching.length, fetching.keeps.named]
    exact readResult_of_keeps fetching.keeps timely fetching.inside
  · have length := length_page bounded fetching.inside
    have after := (pageEnd_bounds (Nat.le_of_lt fetching.inside)).1
    rw [empty, length_nil] at length
    exact (pageEnd_eq_offset fetching.inside).mp (by omega)

theorem ResultExchange.outcome_run {outcome : Except String Bytes}
    (done : exchange.outcome = some outcome) : (exchange.run events).outcome = some outcome := by
  induction events generalizing exchange with
  | nil => exact done
  | cons event rest ih =>
    refine @ih (exchange.step event) ?_
    cases event with
    | own now => rw [ResultExchange.step, done]; exact done
    | read now token position => exact done
    | respond now encoded => exact done

/-- Every read of the client brings something until the text is complete, or a run refuses it. -/
theorem fetching_run (bounded : result.text.length ≤ maxBytes)
    (fetching : Fetching result exchange offset) (unhurried : Unhurried result events) :
    ((exchange.run events).outcome = some (.ok result.text) ∧
        ∀ position, offset < position → ¬ RunAt result.text position) ∨
      (∃ later, offset + events.countP ResultEvent.isOwn ≤ later ∧
        Fetching result (exchange.run events) later) ∨
      ((exchange.run events).outcome = some (.error "Invalid RtDb result chunk") ∧
        ∃ position, RunAt result.text position) := by
  induction events generalizing exchange offset with
  | nil => exact .inr (.inl ⟨offset, Nat.le_refl _, fetching⟩)
  | cons event rest ih =>
    obtain ⟨⟨timely, spares⟩, later⟩ := forall_mem_cons.mp unhurried
    change ((exchange.step event).run rest).outcome = _ ∧ _ ∨
      (∃ later, _ ∧ Fetching result ((exchange.step event).run rest) later) ∨
        ((exchange.step event).run rest).outcome = _ ∧ _
    cases own : event.isOwn with
    | false =>
      rw [countP_cons_of_neg (by simp [own])]
      exact ih (fetching.other own timely spares) later
    | true =>
      rw [countP_cons_of_pos own]
      cases event with
      | read now token position => cases own
      | respond now encoded => cases own
      | own now =>
        rcases fetching.own bounded timely with ⟨run, refused⟩ | ⟨further, next | ⟨last, done⟩⟩
        · exact .inr (.inr ⟨ResultExchange.outcome_run refused, _, run⟩)
        · rcases ih next later with ⟨complete, smooth⟩ | ⟨reached, after, fetched⟩ | refused
          · refine .inl ⟨complete, fun position ahead run => smooth position ?_ run⟩
            exact pageEnd_lt_of_run run ahead
          · exact .inr (.inl ⟨reached, by omega, fetched⟩)
          · exact .inr (.inr refused)
        · refine .inl ⟨ResultExchange.outcome_run done, fun position ahead run => ?_⟩
          have short := pageEnd_lt_of_run run ahead
          have within := run.2.1
          omega

end

/-- A request gets to the handler as it was sent: in one packet, or in chunks that are assembled
to its bytes; a chunk that does not continue what is assembled is refused and changes nothing. -/
structure Uploads (numbers : Numbers) (encoded : Bytes) : Prop where
  starts : ∃ upload, JsonRequestUpload.start encoded = .ok upload ∧
    upload.first.1 = if encoded.length ≤ packetLimit then .whole encoded
      else .request upload.beginRequest
  assembles : packetLimit < encoded.length → ∀ (assembler : Assembler) (events : List Event),
    Undisturbed numbers (Exchange.begin encoded assembler) events →
    let exchange := (Exchange.begin encoded assembler).run numbers events
    (∀ transfer, exchange.outcome = none → exchange.upload.token ≠ [] →
      exchange.assembler.pending.find? exchange.upload.token = some transfer →
        transfer.data <+: encoded) ∧
    (chunksFrom encoded 0 + 2 ≤ events.countP Event.isOwn →
      exchange.outcome = some (finished numbers encoded))
  refuses : ∀ (assembler : Assembler) (transfer : Pending) (request : JsonObject) (now : Nat),
    assembler.pending.find? (tokenOf numbers request) = some transfer →
    now - transfer.touched ≤ transferTimeout →
    operationOf numbers request = ascii "$request_chunk" →
    ((request.value (ascii "offset")).toInteger numbers).toInt ≠ transfer.data.length ∨
      transfer.bytes < transfer.data.length +
        ((request.value (ascii "hex")).toString numbers).length / 2 →
    (dispatch numbers now request assembler).1 = .error "Invalid JSON request chunk" ∧
      (dispatch numbers now request assembler).2.pending.find? (tokenOf numbers request) =
        some transfer

/-- A result gets to its client as it was served: in one packet, or page by page, where every page
brings something. -/
structure Downloads (encoded : Bytes) : Prop where
  served : ∀ now service, (pruneResults now service.results).length ≠ 16 →
    ∃ reply, (respondResult now encoded service).1 = .ok reply ∧
      (reply = .inline encoded ∨ ∃ token bytes, reply = .paged token bytes)
  fetched : ∀ now service token bytes,
    (respondResult now encoded service).1 = .ok (.paged token bytes) →
    (∀ result ∈ pruneResults now service.results, result.token ≠ token) →
    ∃ download, Download.start token bytes = .ok download ∧
      ∀ events, Unhurried { token, text := encoded, expires := now + resultTimeout } events →
        let exchange := ResultExchange.run
          { download, service := (respondResult now encoded service).2, outcome := none } events
        ((exchange.outcome = none ∧ events.countP ResultEvent.isOwn < encoded.length) ∨
          exchange.outcome = some (.ok encoded)) ∧
        (exchange.outcome = none → ∀ later < now + resultTimeout,
          ∃ chunk, (readResult later token exchange.download.contents.length
            exchange.service).1 = .ok chunk ∧ chunk ≠ [])

/-- A service that keeps no results. -/
def emptyResults : Results := { results := [], epoch := [], nextResult := 0 }

theorem uploads_iff (numbers : Numbers) (encoded : Bytes) :
    Uploads numbers encoded ↔ encoded.length ≤ maxBytes := by
  constructor
  · rintro ⟨⟨upload, started, -⟩, -, -⟩
    rw [JsonRequestUpload.start] at started
    split at started
    · cases started
    · omega
  · intro bounded
    refine ⟨⟨{ encoded, token := [], offset := 0, final := false }, ?_, ?_⟩, ?_, ?_⟩
    · rw [JsonRequestUpload.start, if_neg (by omega)]
    · rw [JsonRequestUpload.first]
      split <;> rfl
    · intro long assembler events undisturbed
      have limit : packetLimit = 3000 := rfl
      obtain ⟨goes, ends⟩ := underway_run (by omega) bounded
        (@Underway.beginning encoded assembler) undisturbed
      refine ⟨fun transfer unfinished named found => ?_, ends⟩
      by_cases enough : chunksFrom encoded 0 + 2 ≤ events.countP Event.isOwn
      · rw [ends enough] at unfinished
        cases unfinished
      · exact (goes (by omega)).assembled named found
    · intro assembler transfer request now found timely chunk misplaced
      refine dispatch_refuses found timely chunk (Bool.eq_false_iff.mpr fun further => ?_)
      simp only [continues, Bool.and_eq_true, decide_eq_true_eq, Bool.not_eq_true',
        isEmpty_eq_false_iff, ← length_pos_iff] at further
      omega

theorem begins_fetching (served : (respondResult now encoded service).1 = .ok (.paged token bytes))
    (fresh : ∀ result ∈ pruneResults now service.results, result.token ≠ token) :
    Download.start token bytes = .ok { token, bytes, contents := [] } ∧
      Fetching { token, text := encoded, expires := now + resultTimeout }
        { download := { token, bytes, contents := [] },
          service := (respondResult now encoded service).2, outcome := none } 0 := by
  obtain ⟨rfl, bounded, long, named, keeps⟩ := respondResult_keeps served fresh
  constructor
  · rw [Download.start, if_neg (by omega), if_neg named]
  · exact ⟨rfl, keeps, rfl, rfl, Nat.zero_lt_of_lt long⟩

theorem downloads_iff (encoded : Bytes) : Downloads encoded ↔ encoded.length ≤ maxBytes ∧
    (packetLimit < encoded.length → ∀ position, ¬ RunAt encoded position) := by
  constructor
  · rintro ⟨served, fetched⟩
    have nothing : (pruneResults 0 emptyResults.results).length ≠ 16 := by decide
    obtain ⟨reply, answer, -⟩ := served 0 emptyResults nothing
    have bounded : encoded.length ≤ maxBytes := by
      refine Nat.le_of_not_lt fun large => ?_
      have limits : packetLimit = 3000 ∧ maxBytes = 2097152 := ⟨rfl, rfl⟩
      rw [respondResult, if_neg (by omega), if_pos large] at answer
      cases answer
    refine ⟨bounded, fun long position run => ?_⟩
    have paged : (respondResult 0 encoded emptyResults).1 =
        .ok (.paged (ascii "-1") encoded.length) := by
      rw [respondResult, if_neg (by omega), if_neg (by omega)]
      rfl
    have fresh : ∀ result ∈ pruneResults 0 emptyResults.results, result.token ≠ ascii "-1" :=
      fun result member => by cases member
    obtain ⟨starts, started⟩ := begins_fetching paged fresh
    obtain ⟨download, begun, all⟩ := fetched 0 emptyResults _ _ paged fresh
    cases starts.symm.trans begun
    let reads := List.replicate encoded.length (ResultEvent.own 0)
    have count : reads.countP ResultEvent.isOwn = encoded.length := by
      simp [reads, countP_replicate, ResultEvent.isOwn]
    have unhurried : Unhurried
        { token := ascii "-1", text := encoded, expires := 0 + resultTimeout } reads := by
      intro event member
      rw [eq_of_mem_replicate member]
      exact ⟨(by decide : 0 < 0 + resultTimeout), trivial⟩
    obtain ⟨(⟨-, few⟩ | complete), -⟩ := all reads unhurried
    · omega
    · rcases fetching_run bounded started unhurried with
        ⟨-, smooth⟩ | ⟨later, after, fetching⟩ | ⟨refused, -⟩
      · exact smooth position run.1 run
      · cases fetching.unfinished.symm.trans complete
      · cases refused.symm.trans complete
  · rintro ⟨bounded, smooth⟩
    refine ⟨fun now service room => ?_, fun now service token bytes answer fresh => ?_⟩
    · rw [respondResult]
      split
      · exact ⟨_, rfl, .inl rfl⟩
      · rw [if_neg (by omega)]
        dsimp only
        rw [if_neg room]
        exact ⟨_, rfl, .inr ⟨_, _, rfl⟩⟩
    · obtain ⟨rfl, -, long, -, -⟩ := respondResult_keeps answer fresh
      obtain ⟨starts, started⟩ := begins_fetching answer fresh
      refine ⟨_, starts, fun events unhurried => ?_⟩
      rcases fetching_run bounded started unhurried with
        ⟨complete, -⟩ | ⟨later, after, fetching⟩ | ⟨-, position, run⟩
      · exact ⟨.inr complete, fun unfinished => by cases unfinished.symm.trans complete⟩
      · have inside := fetching.inside
        refine ⟨.inl ⟨fetching.unfinished, by dsimp only at inside; omega⟩, fun _ time timely => ?_⟩
        exact fetching.brings bounded (smooth long _) timely
      · exact absurd run (smooth long position)

/-- A request and a result get through as they are exactly when they keep to the limit and, where
the result is paged, no two thousand bytes in a row behind its first continue a character. -/
theorem transfer_exact_iff (numbers : Numbers) (request result : Bytes) :
    Uploads numbers request ∧ Downloads result ↔ request.length ≤ maxBytes ∧
      result.length ≤ maxBytes ∧
        (packetLimit < result.length → ∀ position, ¬ RunAt result position) := by
  rw [uploads_iff, downloads_iff]

theorem runAt_replicate {before after : Bytes} {count : Nat} (positive : 0 < before.length)
    (enough : 2000 ≤ count) :
    RunAt (before ++ List.replicate count 0x80 ++ after) before.length := by
  refine ⟨positive, by simp; omega, fun index behind within => ?_⟩
  rw [getD_append _ _ _ _ (by simp; omega), getD_append_right _ _ _ _ behind,
    getD_replicate _ (by omega)]
  decide

/-- A result whose text is three thousand bytes that continue a character. -/
def continuedResult : Bytes :=
  ascii "\x7b\"data\": \x7b\"text\": \"" ++ List.replicate 3000 0x80 ++
    ascii "\"\x7d,\"ok\": true\x7d"

theorem transfer_stalls : ¬ (Uploads bitsNumbers (ascii "\x7b\x7d") ∧ Downloads continuedResult) := by
  rintro ⟨-, downloads⟩
  obtain ⟨-, smooth⟩ := (downloads_iff continuedResult).mp downloads
  refine smooth ?_ _ (runAt_replicate (by decide) (by omega))
  have limit : packetLimit = 3000 := rfl
  rw [continuedResult, length_append, length_append, length_replicate, limit]
  have positive : 0 < (ascii "\"\x7d,\"ok\": true\x7d").length := by decide
  omega

end SwStack.Remote
