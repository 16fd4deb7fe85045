import SwStack.Mail.MailCalls

/-! Runs of calls. The counters of a run agree with what it stores, and a mailbox is never read or
changed through another one, as long as the names of the run keep their keys apart. -/
namespace SwStack.Mail

open SwStack.Lib SwStack.Types SwStack.EmbeddedDb List

inductive Call where
  | createAccount (address password : Bytes)
  | appendMessage (accountAddress mailboxName rawMessage : Bytes) (flags : List Bytes)
      (internalDate : Bytes)
  | copyMessage (accountAddress sourceMailbox : Bytes) (uid : Nat) (targetMailbox : Bytes)
  | setMessageFlags (accountAddress mailboxName : Bytes) (uid : Nat) (flags : List Bytes)
  | expungeMailbox (accountAddress mailboxName : Bytes)
  | listMessages (accountAddress mailboxName : Bytes)

/-- A call, with the time it is made at and what its writes come to. -/
structure Request where
  call : Call
  now : Bytes
  outcomes : List (Option DbStatus)

/-- The mailboxes that a call names. -/
def Call.places : Call → List Place
  | .createAccount address _ => defaultPlaces address
  | .appendMessage address mailboxName _ _ _ => [place address mailboxName]
  | .copyMessage address sourceMailbox _ targetMailbox =>
    [place address sourceMailbox, place address targetMailbox]
  | .setMessageFlags address mailboxName _ _ => [place address mailboxName]
  | .expungeMailbox address mailboxName => [place address mailboxName]
  | .listMessages address mailboxName => [place address mailboxName]

/-- The database, with every message that a call ever stored as a new one. -/
structure History where
  db : MailDb
  created : List SwMailMessageEntry

def History.start : History := { db := .empty, created := [] }

/-- A call that may store a new message. -/
def History.grown (history : History) (outcome : Except DbStatus SwMailMessageEntry × Session) :
    History :=
  { db := outcome.2.db
    created :=
      match outcome.1 with
      | .ok entry => history.created ++ [entry]
      | .error _ => history.created }

def History.request (config : SwMailConfig) (history : History) (request : Request) : History :=
  let session : Session := { db := history.db, outcomes := request.outcomes }
  match request.call with
  | .createAccount address password =>
    { history with db := (createAccount session address password).2.db }
  | .appendMessage address mailboxName rawMessage flags internalDate =>
    history.grown
      (appendMessage config request.now session address mailboxName rawMessage flags internalDate)
  | .copyMessage address sourceMailbox uid targetMailbox =>
    history.grown
      (copyMessage config request.now session address sourceMailbox uid targetMailbox)
  | .setMessageFlags address mailboxName uid flags =>
    { history with db := (setMessageFlags session address mailboxName uid flags).2.db }
  | .expungeMailbox address mailboxName =>
    { history with db := (expungeMailbox session address mailboxName).2.db }
  | .listMessages _ _ => history

def run (config : SwMailConfig) (requests : List Request) : History :=
  requests.foldl (History.request config) .start

/-- The stored messages, in the order of their keys. -/
def MailDb.stored (db : MailDb) : List SwMailMessageEntry :=
  db.messages.entries.map fun entry => entry.2.entry

/-- The counters agree with what is stored, and no number is given twice. -/
structure Accounted (history : History) : Prop where
  total : ∀ key mailbox, history.db.mailboxes.find? key = some mailbox →
    mailbox.totalCount =
      (history.db.stored.filter fun entry => entry.place = mailbox.place).length
  unseen : ∀ key mailbox, history.db.mailboxes.find? key = some mailbox →
    mailbox.unseenCount = (history.db.stored.filter fun entry =>
      entry.place = mailbox.place ∧ hasSeenFlag entry.flags = false).length
  above : ∀ key mailbox, history.db.mailboxes.find? key = some mailbox →
    ∀ entry ∈ history.created, entry.place = mailbox.place → entry.uid < mailbox.uidNext
  once : (history.created.map fun entry => (entry.place, entry.uid)).Nodup
  used : ∀ key account, history.db.accounts.find? key = some account →
    account.usedBytes = ((history.db.stored.filter fun entry =>
      entry.accountAddress = account.address).map (·.sizeBytes)).sum

/-- The call concerns one mailbox only: it shows messages of that one, and those of the others
stay as they are. -/
def Isolated (config : SwMailConfig) (before : History) (request : Request) : Prop :=
  match request.call with
  | .setMessageFlags address mailboxName _ _ =>
    Leaves (place address mailboxName) before.db (before.request config request).db
  | .expungeMailbox address mailboxName =>
    Leaves (place address mailboxName) before.db (before.request config request).db
  | .listMessages address mailboxName =>
    ∀ entry ∈ listMessages before.db address mailboxName, entry.place = place address mailboxName
  | _ => True

structure Tracked (places : Set Place) (history : History) : Prop where
  consistent : Consistent places history.db
  above : ∀ entry ∈ history.created, ∃ mailbox,
    history.db.mailboxes.find? entry.place.key = some mailbox ∧ entry.uid < mailbox.uidNext
  once : (history.created.map fun entry => (entry.place, entry.uid)).Nodup

section

variable {places : Set Place} {history : History}

theorem tracked_start (places : Set Place) : Tracked places .start :=
  ⟨consistent_empty places, forall_mem_nil _, nodup_nil⟩

theorem Tracked.edited (tame : Tame places) (tracked : Tracked places history)
    {touched : Set Place} (inside : touched ⊆ places)
    (edits : Edits touched history.db following) : Tracked places { history with db := following } where
  consistent := tracked.consistent.edits tame inside edits
  above entry member := by
    obtain ⟨mailbox, found, below⟩ := tracked.above entry member
    obtain ⟨later, stored, up⟩ := edits.grows _ mailbox found
    exact ⟨later, stored, below.trans_le up⟩
  once := tracked.once

theorem Tracked.grown (tame : Tame places) (tracked : Tracked places history) {place : Place}
    (named : place ∈ places)
    (appends : Appends place { db := history.db, outcomes } outcome) :
    Tracked places (history.grown outcome) := by
  have edited := tracked.edited tame (Set.singleton_subset_iff.mpr named) appends.edits
  rw [History.grown]
  cases made : outcome.1 with
  | error failure => exact edited
  | ok entry =>
    obtain ⟨here, ⟨middle, mailbox, edits, found, number⟩, above⟩ := appends.numbered entry made
    refine ⟨edited.consistent, ?_, ?_⟩
    · refine forall_mem_append.mpr ⟨edited.above, forall_mem_singleton.mpr ?_⟩
      rw [here]
      exact above
    · -- numbers given before are below the mailbox's next number
      rw [map_append, map_singleton, nodup_append]
      refine ⟨tracked.once, nodup_singleton _, ?_⟩
      rintro pair member _ single same
      rw [mem_singleton.mp single] at same
      obtain ⟨earlier, listed, shape⟩ := mem_map.mp member
      rw [same] at shape
      injection shape with samePlace sameUid
      obtain ⟨known, stored, below⟩ := tracked.above earlier listed
      obtain ⟨later, kept, up⟩ := edits.grows _ known stored
      rw [samePlace, here, found] at kept
      injection kept with kept
      rw [sameUid, number, kept] at below
      exact absurd (below.trans_le up) (lt_irrefl _)

theorem Tracked.request (tame : Tame places) (tracked : Tracked places history)
    (config : SwMailConfig) {request : Request}
    (named : ∀ place ∈ request.call.places, place ∈ places) :
    Tracked places (history.request config request) := by
  obtain ⟨call, now, outcomes⟩ := request
  have consistent : Consistent places (Session.mk history.db outcomes).db := tracked.consistent
  rw [History.request]
  cases call with
  | createAccount address password =>
    simp only [Call.places] at named ⊢
    have clean : ∀ place ∈ defaultPlaces address, place.Clean :=
      fun place member => tame.clean place (named place member)
    exact tracked.edited tame named
      (createAccount_edits clean { db := history.db, outcomes } password)
  | appendMessage address mailboxName rawMessage flags internalDate =>
    simp only [Call.places, mem_singleton, forall_eq] at named ⊢
    have appends := appendMessage_appends tame consistent config now named rfl rawMessage flags
      internalDate
    exact tracked.grown tame named appends
  | copyMessage address sourceMailbox uid targetMailbox =>
    simp only [Call.places, mem_cons, not_mem_nil, or_false, forall_eq_or_imp,
      forall_eq] at named ⊢
    have appends := copyMessage_appends tame consistent config now named.2 rfl sourceMailbox uid
    exact tracked.grown tame named.2 appends
  | setMessageFlags address mailboxName uid flags =>
    simp only [Call.places, mem_singleton, forall_eq] at named ⊢
    exact tracked.edited tame (Set.singleton_subset_iff.mpr named)
      (setMessageFlags_edits tame consistent named rfl uid flags)
  | expungeMailbox address mailboxName =>
    simp only [Call.places, mem_singleton, forall_eq] at named ⊢
    exact tracked.edited tame (Set.singleton_subset_iff.mpr named)
      (expungeMailbox_edits tame consistent named rfl)
  | listMessages address mailboxName => exact tracked

theorem sum_stored (db : MailDb) (counts : SwMailMessageEntry → Bool)
    (value : SwMailMessageEntry → Nat) : ((db.stored.filter counts).map value).sum =
      db.messages.weight fun row => if counts row.entry then value row.entry else 0 := by
  rw [MailDb.stored, SortedMap.weight]
  generalize db.messages.entries = entries
  induction entries with
  | nil => rfl
  | cons entry entries ih =>
    rw [map_cons, filter_cons, map_cons, sum_cons]
    cases counts entry.2.entry with
    | true =>
      rw [if_pos rfl, if_pos rfl, map_cons, sum_cons, ih]
    | false =>
      rw [if_neg Bool.false_ne_true, if_neg Bool.false_ne_true, ih, Nat.zero_add]

theorem length_stored (db : MailDb) (counts : SwMailMessageEntry → Bool) :
    (db.stored.filter counts).length =
      db.messages.weight fun row => if counts row.entry then 1 else 0 := by
  have ones := sum_stored db counts fun _ => 1
  rw [← ones]
  simp

theorem Tracked.accounted (tracked : Tracked places history) :
    Accounted history where
  total key mailbox found := by
    rw [tracked.consistent.total key mailbox found, length_stored]
    congr 1
    funext row
    exact if_congr decide_eq_true_iff.symm rfl rfl
  unseen key mailbox found := by
    rw [tracked.consistent.unseen key mailbox found, length_stored]
    congr 1
    funext row
    exact if_congr decide_eq_true_iff.symm rfl rfl
  above key mailbox found entry member here := by
    obtain ⟨named, rfl⟩ := tracked.consistent.mailbox key mailbox found
    obtain ⟨later, stored, below⟩ := tracked.above entry member
    rw [here, found] at stored
    injection stored with stored
    rw [stored]
    exact below
  once := tracked.once
  used key account found := by
    rw [tracked.consistent.used key account found, sum_stored]
    congr 1
    funext row
    exact if_congr decide_eq_true_iff.symm rfl rfl

theorem Tracked.isolated (tame : Tame places) (tracked : Tracked places history)
    (config : SwMailConfig) {request : Request}
    (named : ∀ place ∈ request.call.places, place ∈ places) :
    Isolated config history request := by
  obtain ⟨call, now, outcomes⟩ := request
  have consistent : Consistent places (Session.mk history.db outcomes).db := tracked.consistent
  rw [Isolated, History.request]
  cases call with
  | createAccount address password => trivial
  | appendMessage address mailboxName rawMessage flags internalDate => trivial
  | copyMessage address sourceMailbox uid targetMailbox => trivial
  | setMessageFlags address mailboxName uid flags =>
    simp only [Call.places, mem_singleton, forall_eq] at named ⊢
    exact (setMessageFlags_edits tame consistent named rfl uid flags).leaves tame named consistent
  | expungeMailbox address mailboxName =>
    simp only [Call.places, mem_singleton, forall_eq] at named ⊢
    exact (expungeMailbox_edits tame consistent named rfl).leaves tame named consistent
  | listMessages address mailboxName =>
    simp only [Call.places, mem_singleton, forall_eq] at named ⊢
    intro entry shown
    rw [listMessages, ← place_address address mailboxName, ← place_mailbox address mailboxName]
      at shown
    have listed := (tracked.consistent.listing tame named).mem_iff.mp shown
    obtain ⟨row, inside, rfl⟩ := mem_map.mp listed
    exact of_decide_eq_true (mem_filter.mp inside).2

end

/-- The mailboxes that the requests name. -/
def namedPlaces (requests : List Request) : List Place :=
  requests.flatMap fun request => request.call.places

/-- The names that a run names are normalised. -/
theorem normalized_of_named {requests : List Request} {found : Place}
    (named : found ∈ namedPlaces requests) : normalizeMailboxName found.mailbox = found.mailbox := by
  obtain ⟨⟨call, now, outcomes⟩, -, member⟩ := mem_flatMap.mp named
  have made : ∃ address name, found = Mail.place address name := by
    cases call with
    | createAccount address password =>
      obtain ⟨name, -, rfl⟩ := mem_map.mp member
      exact ⟨address, name, rfl⟩
    | copyMessage address source uid target =>
      rcases mem_pair.mp member with rfl | rfl
      · exact ⟨_, _, rfl⟩
      · exact ⟨_, _, rfl⟩
    | _ => exact ⟨_, _, mem_singleton.mp member⟩
  obtain ⟨address, name, rfl⟩ := made
  exact normalizeMailboxName_idem name

theorem tracked_run {places : Set Place} (tame : Tame places) (config : SwMailConfig)
    {requests : List Request} (named : ∀ place ∈ namedPlaces requests, place ∈ places) :
    Tracked places (run config requests) := by
  induction requests using List.reverseRecOn with
  | nil => exact tracked_start places
  | append_singleton requests request ih =>
    rw [namedPlaces, flatMap_append] at named
    obtain ⟨before, last⟩ := forall_mem_append.mp named
    rw [flatMap_singleton] at last
    rw [run, foldl_concat]
    exact (ih before).request tame config last

/-- In a run whose names keep their keys apart, the counters agree with the stored messages, no
number is given twice, and no mailbox is shown or changed through another. -/
theorem run_accounted (config : SwMailConfig) (requests : List Request)
    (tame : Tame {place | place ∈ namedPlaces requests}) :
    Accounted (run config requests) ∧
      ∀ before request after, requests = before ++ request :: after →
        Isolated config (run config before) request := by
  refine ⟨(tracked_run tame config fun _ member => member).accounted, ?_⟩
  rintro before request after rfl
  have named : ∀ place ∈ namedPlaces before ++ request.call.places,
      place ∈ namedPlaces (before ++ request :: after) := by
    intro place member
    rw [namedPlaces, flatMap_append, flatMap_cons, ← append_assoc]
    exact mem_append_left _ member
  obtain ⟨earlier, here⟩ := forall_mem_append.mp named
  exact (tracked_run tame config earlier).isolated tame config here

theorem tame_of_plain (plain : ∀ place ∈ places, place.Plain) : Tame places where
  clean place named := (plain place named).toClean
  apart place named other otherNamed different :=
    (plain place named).apart (plain other otherNamed) different

def sampleConfig : SwMailConfig := { maxMessageBytes := 1024 }

/-- An account whose address goes on where another account's mailbox is meant. -/
def sharedKeyRequests : List Request :=
  [{ call := .createAccount (ascii "a@b") (ascii "pass"), now := [], outcomes := [] },
    { call := .createAccount (ascii "a@b/x") (ascii "pass"), now := [], outcomes := [] },
    { call := .appendMessage (ascii "a@b") (ascii "x/Sent") (ascii "first") [] []
      now := []
      outcomes := [] },
    { call := .appendMessage (ascii "a@b") (ascii "x/Sent") (ascii "second") [] []
      now := []
      outcomes := [] }]

theorem run_miscounts : ¬∀ config requests, Accounted (run config requests) ∧
    ∀ before request after, requests = before ++ request :: after →
      Isolated config (run config before) request := by
  intro claim
  have accounted := (claim sampleConfig sharedKeyRequests).1
  -- the mailbox is read under one key and written under another: both messages get number 1
  have numbers : (run sampleConfig sharedKeyRequests).created.map
      (fun entry => (entry.place, entry.uid)) =
        [(⟨ascii "a@b", ascii "Sent"⟩, 1), (⟨ascii "a@b", ascii "Sent"⟩, 1)] := by
    decide +kernel
  have once := accounted.once
  rw [numbers] at once
  exact absurd (mem_singleton_self _) (nodup_cons.mp once).1

/-- An address and a mailbox in other spellings, and a mailbox under another. -/
def plainRequests : List Request :=
  [{ call := .createAccount (ascii "a@b") (ascii "pass"), now := [], outcomes := [] },
    { call := .appendMessage (ascii "A@b") (ascii "lists/x") (ascii "hi") [] []
      now := []
      outcomes := [] }]

theorem run_accounted_plain : Accounted (run sampleConfig plainRequests) := by
  have checked : ∀ place ∈ namedPlaces plainRequests,
      canonicalAddress place.address = place.address ∧
      (0 ∉ place.address ∧ 0 ∉ place.mailbox) ∧ 0x2f ∉ place.address ∧ 0x1f ∉ place.address ∧
        0x1f ∉ place.mailbox := by
    decide +kernel
  have tame : Tame {place | place ∈ namedPlaces plainRequests} := by
    refine tame_of_plain fun place named => ?_
    obtain ⟨address, ⟨addressText, mailboxText⟩, slash, unit, mailboxUnit⟩ := checked place named
    exact ⟨⟨address, normalized_of_named named, addressText, mailboxText⟩, slash, unit, mailboxUnit⟩
  exact (run_accounted sampleConfig plainRequests tame).1

end SwStack.Mail
