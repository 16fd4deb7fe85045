import SwStack.Mail.MailPlaces
import SwStack.Lib.MapWeight

/-! What the calls do to the database, edit by edit, and what every edit preserves: counters that
agree with the stored messages, and records under their own keys. -/
namespace SwStack.Mail

open SwStack.Lib SwStack.Types SwStack.EmbeddedDb

/-- The mailboxes that a run names: each is spelled as its keys are, and no two of them share a
key or a range of the index. -/
structure Tame (places : Set Place) : Prop where
  clean : ∀ place ∈ places, place.Clean
  apart : ∀ place ∈ places, ∀ other ∈ places, place ≠ other → place.Apart other

def heldCount (place : Place) (row : MessageRow) : Nat := if row.entry.place = place then 1 else 0

def heldUnseen (place : Place) (row : MessageRow) : Nat :=
  if row.entry.place = place ∧ hasSeenFlag row.entry.flags = false then 1 else 0

def heldBytes (address : Bytes) (row : MessageRow) : Nat :=
  if row.entry.accountAddress = address then row.entry.sizeBytes else 0

structure Consistent (places : Set Place) (db : MailDb) : Prop where
  account : ∀ key account, db.accounts.find? key = some account →
    ∃ place ∈ places, place.address = account.address ∧ key = place.accountKey
  used : ∀ key account, db.accounts.find? key = some account →
    account.usedBytes = db.messages.weight (heldBytes account.address)
  mailbox : ∀ key mailbox, db.mailboxes.find? key = some mailbox →
    mailbox.place ∈ places ∧ key = mailbox.place.key
  total : ∀ key mailbox, db.mailboxes.find? key = some mailbox →
    mailbox.totalCount = db.messages.weight (heldCount mailbox.place)
  unseen : ∀ key mailbox, db.mailboxes.find? key = some mailbox →
    mailbox.unseenCount = db.messages.weight (heldUnseen mailbox.place)
  message : ∀ key row, db.messages.find? key = some row → row.entry.place ∈ places ∧
    key = row.entry.place.messageKey row.entry.uid ∧ row = messageRow row.entry
  located : ∀ key row, db.messages.find? key = some row →
    ∃ mailbox, db.mailboxes.find? row.entry.place.key = some mailbox ∧
      row.entry.uid < mailbox.uidNext
  owned : ∀ key row, db.messages.find? key = some row →
    ∃ account, db.accounts.find? row.entry.place.accountKey = some account

theorem consistent_empty (places : Set Place) : Consistent places MailDb.empty := by
  constructor <;> intro key record found <;> cases found

variable {mailbox : SwMailMailbox} {account : SwMailAccount}

section

variable {place : Place}

theorem Consistent.mailbox_place (tame : Tame places) (consistent : Consistent places db)
    (named : place ∈ places)
    (found : db.mailboxes.find? place.key = some mailbox) : mailbox.place = place := by
  obtain ⟨member, same⟩ := consistent.mailbox _ _ found
  by_contra different
  exact (tame.apart _ named _ member (Ne.symm different)).mailbox same

theorem Consistent.account_address (tame : Tame places) (consistent : Consistent places db)
    (named : place ∈ places)
    (found : db.accounts.find? place.accountKey = some account) :
    account.address = place.address := by
  obtain ⟨other, member, same, key⟩ := consistent.account _ _ found
  rw [← same]
  exact ((tame.clean _ named).accountKey_inj (tame.clean _ member) key).symm

theorem Consistent.message_place (tame : Tame places) (consistent : Consistent places db)
    (named : place ∈ places)
    (found : db.messages.find? (place.messageKey uid) = some row) :
    row.entry.place = place ∧ row.entry.uid = uid := by
  obtain ⟨member, same, _⟩ := consistent.message _ _ found
  have places_eq : row.entry.place = place := by
    by_contra different
    exact (tame.apart _ named _ member (Ne.symm different)).message _ _ same
  rw [places_eq] at same
  exact ⟨places_eq, ((tame.clean _ named).messageKey_inj same).symm⟩

theorem Consistent.fresh (tame : Tame places) (consistent : Consistent places db)
    (named : place ∈ places)
    (found : db.mailboxes.find? place.key = some mailbox) :
    db.messages.find? (place.messageKey mailbox.uidNext) = none := by
  rw [Option.eq_none_iff_forall_not_mem]
  intro row taken
  obtain ⟨here, number⟩ := consistent.message_place tame named taken
  obtain ⟨other, same, below⟩ := consistent.located _ _ taken
  rw [here, found] at same
  injection same with same
  rw [number, ← same] at below
  exact lt_irrefl _ below

end

/-- One write of a call on a mailbox. -/
inductive Edit (place : Place) (db : MailDb) : MailDb → Prop where
  | opened (account : SwMailAccount) (new : db.accounts.find? place.accountKey = none)
      (address : account.address = place.address) (unused : account.usedBytes = 0) :
      Edit place db { db with accounts := db.accounts.insert place.accountKey account }
  | added (mailbox : SwMailMailbox) (new : db.mailboxes.find? place.key = none)
      (named : mailbox.place = place)
      (empty : mailbox.totalCount = 0 ∧ mailbox.unseenCount = 0) :
      Edit place db { db with mailboxes := db.mailboxes.insert place.key mailbox }
  | appended (mailbox following : SwMailMailbox) (account : SwMailAccount)
      (entry : SwMailMessageEntry)
      (mailboxFound : db.mailboxes.find? place.key = some mailbox)
      (accountFound : db.accounts.find? place.accountKey = some account)
      (named : entry.place = place) (numbered : entry.uid = mailbox.uidNext)
      (follows : following = { mailbox with
        uidNext := mailbox.uidNext + 1
        totalCount := mailbox.totalCount + 1
        unseenCount := mailbox.unseenCount + heldUnseen place (messageRow entry) }) :
      Edit place db
        { accounts := db.accounts.insert place.accountKey
            { account with usedBytes := account.usedBytes + entry.sizeBytes }
          mailboxes := db.mailboxes.insert place.key following
          messages := db.messages.insert (place.messageKey entry.uid) (messageRow entry) }
  | flagged (uid : Nat) (row : MessageRow) (flags : List Bytes) (mailbox following : SwMailMailbox)
      (rowFound : db.messages.find? (place.messageKey uid) = some row)
      (mailboxFound : db.mailboxes.find? place.key = some mailbox)
      (follows : following.place = mailbox.place ∧ following.uidNext = mailbox.uidNext ∧
        following.totalCount = mailbox.totalCount ∧
        following.unseenCount + heldUnseen place row =
          mailbox.unseenCount + heldUnseen place (messageRow { row.entry with flags })) :
      Edit place db { db with
        mailboxes := db.mailboxes.insert place.key following
        messages := db.messages.insert (place.messageKey uid)
          (messageRow { row.entry with flags }) }
  | expunged (remove : MessageRow → Bool) (mailbox following : SwMailMailbox)
      (account paying : SwMailAccount) (messages : SortedMap Bytes MessageRow)
      (kept : messages = db.messages.filter fun _ row =>
        !(decide (row.entry.place = place) && remove row))
      (mailboxFound : db.mailboxes.find? place.key = some mailbox)
      (accountFound : db.accounts.find? place.accountKey = some account)
      (follows : following.place = mailbox.place ∧ following.uidNext = mailbox.uidNext ∧
        following.totalCount = messages.weight (heldCount place) ∧
        following.unseenCount = messages.weight (heldUnseen place))
      (pays : paying.address = account.address ∧
        paying.usedBytes = messages.weight (heldBytes place.address)) :
      Edit place db
        { accounts := db.accounts.insert place.accountKey paying
          mailboxes := db.mailboxes.insert place.key following
          messages }

theorem weight_eq_zero {map : SortedMap Bytes MessageRow} {measure : MessageRow → Nat}
    (none_counts : ∀ key row, map.find? key = some row → measure row = 0) :
    map.weight measure = 0 := by
  refine List.sum_eq_zero fun value member => ?_
  obtain ⟨entry, listed, rfl⟩ := List.mem_map.mp member
  exact none_counts entry.1 entry.2 (SortedMap.find?_of_mem listed)

theorem find?_insert_cases {ν : Type v} {map : SortedMap Bytes ν} {key other : Bytes}
    {value found : ν} (held : (map.insert key value).find? other = some found) :
    (other = key ∧ found = value) ∨ (other ≠ key ∧ map.find? other = some found) := by
  rw [SortedMap.find?_insert] at held
  split at held
  · rename_i same
    injection held with held
    exact .inl ⟨same, held.symm⟩
  · rename_i different
    exact .inr ⟨different, held⟩

theorem forall_insert {ν : Type v} {map : SortedMap Bytes ν} {key : Bytes} {value : ν}
    {holds : Bytes → ν → Prop} (new : holds key value)
    (old : ∀ other found, other ≠ key → map.find? other = some found → holds other found)
    (other : Bytes) (found : ν) (held : (map.insert key value).find? other = some found) :
    holds other found := by
  rcases find?_insert_cases held with ⟨rfl, rfl⟩ | ⟨apart, before⟩
  · exact new
  · exact old other found apart before

theorem isSome_insert {ν : Type v} {map : SortedMap Bytes ν} {key other : Bytes} {value : ν}
    (held : ∃ found, map.find? other = some found) :
    ∃ found, (map.insert key value).find? other = some found := by
  rw [SortedMap.find?_insert]
  split
  · exact ⟨value, rfl⟩
  · exact held

section

variable {place : Place}

theorem Consistent.elsewhere (consistent : Consistent places db) {key : Bytes}
    (apart : key ≠ place.key) (before : db.mailboxes.find? key = some mailbox) :
    place ≠ mailbox.place := by
  intro same
  rw [(consistent.mailbox key mailbox before).2, ← same] at apart
  exact apart rfl

theorem Consistent.still_located (consistent : Consistent places db)
    (found : db.mailboxes.find? place.key = some mailbox)
    (grows : mailbox.uidNext ≤ following.uidNext)
    (stored : db.messages.find? key = some row) :
    ∃ next, (db.mailboxes.insert place.key following).find? row.entry.place.key = some next ∧
      row.entry.uid < next.uidNext := by
  obtain ⟨holder, known, below⟩ := consistent.located key row stored
  rw [SortedMap.find?_insert]
  split
  · rename_i same
    rw [same, found] at known
    injection known with known
    exact ⟨following, rfl, (known ▸ below).trans_le grows⟩
  · exact ⟨holder, known, below⟩

theorem Consistent.opened (consistent : Consistent places db) (named : place ∈ places)
    (new : db.accounts.find? place.accountKey = none)
    (address : account.address = place.address) (unused : account.usedBytes = 0) :
    Consistent places
      { db with accounts := db.accounts.insert place.accountKey account } where
  account := forall_insert ⟨place, named, address.symm, rfl⟩
    fun key found _ => consistent.account key found
  used key found held := by
    rcases find?_insert_cases held with ⟨rfl, rfl⟩ | ⟨_, before⟩
    · rw [unused]
      refine (weight_eq_zero fun key row stored => ?_).symm
      rw [heldBytes, if_neg]
      intro own
      obtain ⟨owner, known⟩ := consistent.owned key row stored
      have same : row.entry.place.accountKey = place.accountKey :=
        congrArg (fun address => toKey (Mail.accountKey address)) (own.trans address)
      rw [same, new] at known
      cases known
    · exact consistent.used key found before
  mailbox := consistent.mailbox
  total := consistent.total
  unseen := consistent.unseen
  message := consistent.message
  located := consistent.located
  owned key row stored := isSome_insert (consistent.owned key row stored)

theorem Consistent.added (consistent : Consistent places db) (named : place ∈ places)
    (new : db.mailboxes.find? place.key = none)
    (here : mailbox.place = place) (empty : mailbox.totalCount = 0 ∧ mailbox.unseenCount = 0) :
    Consistent places { db with mailboxes := db.mailboxes.insert place.key mailbox } := by
  have absent : ∀ key row, db.messages.find? key = some row → row.entry.place ≠ place := by
    intro key row stored own
    obtain ⟨found, known, _⟩ := consistent.located key row stored
    rw [own, new] at known
    cases known
  exact
    { account := consistent.account
      used := consistent.used
      mailbox := forall_insert ⟨here ▸ named, by rw [here]⟩
        fun key found _ => consistent.mailbox key found
      total := by
        refine forall_insert ?_ fun key found _ => consistent.total key found
        rw [empty.1, here]
        exact (weight_eq_zero fun key row stored => if_neg (absent key row stored)).symm
      unseen := by
        refine forall_insert ?_ fun key found _ => consistent.unseen key found
        rw [empty.2, here]
        exact (weight_eq_zero fun key row stored =>
          if_neg fun both => absent key row stored both.1).symm
      message := consistent.message
      located := by
        intro key row stored
        obtain ⟨found, known, below⟩ := consistent.located key row stored
        refine ⟨found, ?_, below⟩
        rw [SortedMap.find?_insert, if_neg]
        · exact known
        · intro same
          rw [same, new] at known
          cases known
      owned := consistent.owned }

theorem Consistent.appended (tame : Tame places) (consistent : Consistent places db)
    (named : place ∈ places)
    {entry : SwMailMessageEntry} (mailboxFound : db.mailboxes.find? place.key = some mailbox)
    (accountFound : db.accounts.find? place.accountKey = some account)
    (here : entry.place = place) (numbered : entry.uid = mailbox.uidNext)
    (follows : following = { mailbox with
      uidNext := mailbox.uidNext + 1
      totalCount := mailbox.totalCount + 1
      unseenCount := mailbox.unseenCount + heldUnseen place (messageRow entry) }) :
    Consistent places
      { accounts := db.accounts.insert place.accountKey
          { account with usedBytes := account.usedBytes + entry.sizeBytes }
        mailboxes := db.mailboxes.insert place.key following
        messages := db.messages.insert (place.messageKey entry.uid) (messageRow entry) } := by
  have mailboxPlace := consistent.mailbox_place tame named mailboxFound
  have owner := consistent.account_address tame named accountFound
  have followingPlace : following.place = place := by
    rw [follows]
    exact mailboxPlace
  have counted (measure : MessageRow → Nat) :
      (db.messages.insert (place.messageKey entry.uid) (messageRow entry)).weight measure =
        measure (messageRow entry) + db.messages.weight measure := by
    rw [SortedMap.weight_insert, numbered,
      SortedMap.erase_of_absent (consistent.fresh tame named mailboxFound)]
  exact
    { account := forall_insert ⟨place, named, owner.symm, rfl⟩
        fun key found _ => consistent.account key found
      used := by
        intro key found held
        rw [counted]
        rcases find?_insert_cases held with ⟨rfl, rfl⟩ | ⟨apart, before⟩
        · have own : entry.accountAddress = account.address := by
            rw [owner, ← here]
            rfl
          have size : heldBytes account.address (messageRow entry) = entry.sizeBytes := if_pos own
          change account.usedBytes + entry.sizeBytes =
            heldBytes account.address (messageRow entry) +
              db.messages.weight (heldBytes account.address)
          rw [size, consistent.used _ account accountFound, Nat.add_comm]
        · obtain ⟨other, _, same, rfl⟩ := consistent.account key found before
          rw [heldBytes, if_neg, Nat.zero_add]
          · exact consistent.used _ found before
          · intro own
            have address : other.address = place.address := by
              rw [same, ← here]
              exact own.symm
            exact apart (congrArg (fun address => toKey (Mail.accountKey address)) address)
      mailbox := forall_insert ⟨followingPlace ▸ named, by rw [followingPlace]⟩
        fun key found _ => consistent.mailbox key found
      total := by
        intro key found held
        rw [counted]
        rcases find?_insert_cases held with ⟨rfl, rfl⟩ | ⟨apart, before⟩
        · have sum := consistent.total _ mailbox mailboxFound
          rw [mailboxPlace] at sum
          have single : heldCount place (messageRow entry) = 1 := if_pos here
          rw [followingPlace, single, follows, ← sum]
          exact Nat.add_comm _ _
        · have other : entry.place ≠ found.place := here ▸ consistent.elsewhere apart before
          rw [show heldCount found.place (messageRow entry) = 0 from if_neg other, Nat.zero_add]
          exact consistent.total key found before
      unseen := by
        intro key found held
        rw [counted]
        rcases find?_insert_cases held with ⟨rfl, rfl⟩ | ⟨apart, before⟩
        · have sum := consistent.unseen _ mailbox mailboxFound
          rw [mailboxPlace] at sum
          rw [followingPlace, follows, ← sum]
          exact Nat.add_comm _ _
        · have zero : heldUnseen found.place (messageRow entry) = 0 :=
            if_neg fun both => consistent.elsewhere apart before (here.symm.trans both.1)
          rw [zero, Nat.zero_add]
          exact consistent.unseen key found before
      message := by
        intro key row stored
        rcases find?_insert_cases stored with ⟨rfl, rfl⟩ | ⟨_, before⟩
        · change entry.place ∈ places ∧ place.messageKey entry.uid = entry.place.messageKey _ ∧ _
          rw [here]
          exact ⟨named, rfl, rfl⟩
        · exact consistent.message key row before
      located := by
        intro key row stored
        rcases find?_insert_cases stored with ⟨rfl, rfl⟩ | ⟨_, before⟩
        · change ∃ mailbox', _ = _ ∧ entry.uid < _
          refine ⟨following, ?_, ?_⟩
          · change (db.mailboxes.insert place.key following).find? entry.place.key = _
            rw [here, SortedMap.find?_insert_self]
          · rw [follows, numbered]
            exact Nat.lt_succ_self _
        · exact consistent.still_located mailboxFound (follows ▸ Nat.le_succ _) before
      owned := by
        intro key row stored
        rcases find?_insert_cases stored with ⟨rfl, rfl⟩ | ⟨_, before⟩
        · refine isSome_insert ⟨account, ?_⟩
          change db.accounts.find? entry.place.accountKey = _
          rw [here, accountFound]
        · exact isSome_insert (consistent.owned key row before) }

theorem Consistent.flagged (tame : Tame places) (consistent : Consistent places db)
    (named : place ∈ places) {uid : Nat} (flags : List Bytes)
    (rowFound : db.messages.find? (place.messageKey uid) = some row)
    (mailboxFound : db.mailboxes.find? place.key = some mailbox)
    (follows : following.place = mailbox.place ∧ following.uidNext = mailbox.uidNext ∧
      following.totalCount = mailbox.totalCount ∧
      following.unseenCount + heldUnseen place row =
        mailbox.unseenCount + heldUnseen place (messageRow { row.entry with flags })) :
    Consistent places { db with
      mailboxes := db.mailboxes.insert place.key following
      messages := db.messages.insert (place.messageKey uid)
        (messageRow { row.entry with flags }) } := by
  have mailboxPlace := consistent.mailbox_place tame named mailboxFound
  obtain ⟨here, numbered⟩ := consistent.message_place tame named rowFound
  have followingPlace : following.place = place := follows.1.trans mailboxPlace
  have counted (measure : MessageRow → Nat) :
      (db.messages.insert (place.messageKey uid)
          (messageRow { row.entry with flags })).weight measure + measure row =
        db.messages.weight measure + measure (messageRow { row.entry with flags }) := by
    rw [SortedMap.weight_insert, SortedMap.weight_erase measure rowFound]
    omega
  have kept {measure : MessageRow → Nat}
      (same : measure (messageRow { row.entry with flags }) = measure row) :
      (db.messages.insert (place.messageKey uid)
        (messageRow { row.entry with flags })).weight measure = db.messages.weight measure := by
    have sums := counted measure
    rw [same] at sums
    exact Nat.add_right_cancel sums
  exact
    { account := consistent.account
      used := by
        intro key found held
        rw [kept rfl]
        exact consistent.used key found held
      mailbox := forall_insert ⟨followingPlace ▸ named, by rw [followingPlace]⟩
        fun key found _ => consistent.mailbox key found
      total := by
        intro key found held
        rw [kept rfl]
        rcases find?_insert_cases held with ⟨rfl, rfl⟩ | ⟨_, before⟩
        · rw [follows.1, follows.2.2.1]
          exact consistent.total _ mailbox mailboxFound
        · exact consistent.total key found before
      unseen := by
        intro key found held
        rcases find?_insert_cases held with ⟨rfl, rfl⟩ | ⟨apart, before⟩
        · have sum := consistent.unseen _ mailbox mailboxFound
          have moved := follows.2.2.2
          rw [mailboxPlace] at sum
          rw [sum, ← counted] at moved
          rw [followingPlace]
          exact Nat.add_right_cancel moved
        · have other : row.entry.place ≠ found.place := here ▸ consistent.elsewhere apart before
          have zero : heldUnseen found.place row = 0 := if_neg fun both => other both.1
          have zeroAfter :
              heldUnseen found.place (messageRow { row.entry with flags }) = 0 :=
            if_neg fun both => other both.1
          rw [kept (zeroAfter.trans zero.symm)]
          exact consistent.unseen key found before
      message := by
        intro key other stored
        rcases find?_insert_cases stored with ⟨rfl, rfl⟩ | ⟨_, before⟩
        · have original := consistent.message _ row rowFound
          exact ⟨original.1, original.2.1, rfl⟩
        · exact consistent.message key other before
      located := by
        intro key other stored
        rcases find?_insert_cases stored with ⟨rfl, rfl⟩ | ⟨_, before⟩
        · have original := consistent.still_located mailboxFound follows.2.1.ge rowFound
          exact original
        · exact consistent.still_located mailboxFound follows.2.1.ge before
      owned := by
        intro key other stored
        rcases find?_insert_cases stored with ⟨rfl, rfl⟩ | ⟨_, before⟩
        · exact consistent.owned _ row rowFound
        · exact consistent.owned key other before }

theorem Consistent.expunged (tame : Tame places) (consistent : Consistent places db)
    (named : place ∈ places) {remove : MessageRow → Bool}
    (kept : messages = db.messages.filter fun _ row =>
      !(decide (row.entry.place = place) && remove row))
    (mailboxFound : db.mailboxes.find? place.key = some mailbox)
    (accountFound : db.accounts.find? place.accountKey = some account)
    (follows : following.place = mailbox.place ∧ following.uidNext = mailbox.uidNext ∧
      following.totalCount = messages.weight (heldCount place) ∧
      following.unseenCount = messages.weight (heldUnseen place))
    (pays : paying.address = account.address ∧
      paying.usedBytes = messages.weight (heldBytes place.address)) :
    Consistent places
      { accounts := db.accounts.insert place.accountKey paying
        mailboxes := db.mailboxes.insert place.key following
        messages } := by
  have mailboxPlace := consistent.mailbox_place tame named mailboxFound
  have owner := consistent.account_address tame named accountFound
  have followingPlace : following.place = place := follows.1.trans mailboxPlace
  have stays {key : Bytes} {row : MessageRow} (stored : messages.find? key = some row) :
      db.messages.find? key = some row := by
    rw [kept, SortedMap.find?_filter, Option.filter_eq_some_iff] at stored
    exact stored.1
  -- what counts nothing for the mailbox is counted as before
  have unmoved {measure : MessageRow → Nat}
      (apart : ∀ row, row.entry.place = place → measure row = 0) :
      messages.weight measure = db.messages.weight measure := by
    rw [kept, SortedMap.weight_filter measure db.messages fun _ row =>
      !(decide (row.entry.place = place) && remove row)]
    refine (Nat.add_eq_left.mpr (List.sum_eq_zero fun value member => ?_)).symm
    obtain ⟨entry, listed, rfl⟩ := List.mem_map.mp member
    have dropped := (List.mem_filter.mp listed).2
    rw [Bool.not_not, Bool.and_eq_true, decide_eq_true_iff] at dropped
    exact apart entry.2 dropped.1
  exact
    { account := forall_insert ⟨place, named, (pays.1.trans owner).symm, rfl⟩
        fun key found _ => consistent.account key found
      used := by
        intro key found held
        rcases find?_insert_cases held with ⟨rfl, rfl⟩ | ⟨apart, before⟩
        · rw [pays.1, owner]
          exact pays.2
        · obtain ⟨other, _, same, rfl⟩ := consistent.account key found before
          rw [unmoved]
          · exact consistent.used _ found before
          · intro row own
            refine if_neg fun address => ?_
            have shared : other.address = place.address := by
              rw [same, ← own]
              exact address.symm
            exact apart (congrArg (fun address => toKey (Mail.accountKey address)) shared)
      mailbox := forall_insert ⟨followingPlace ▸ named, by rw [followingPlace]⟩
        fun key found _ => consistent.mailbox key found
      total := by
        intro key found held
        rcases find?_insert_cases held with ⟨rfl, rfl⟩ | ⟨apart, before⟩
        · rw [followingPlace]
          exact follows.2.2.1
        · rw [unmoved]
          · exact consistent.total key found before
          · intro row own
            exact if_neg fun same => consistent.elsewhere apart before (own.symm.trans same)
      unseen := by
        intro key found held
        rcases find?_insert_cases held with ⟨rfl, rfl⟩ | ⟨apart, before⟩
        · rw [followingPlace]
          exact follows.2.2.2
        · rw [unmoved]
          · exact consistent.unseen key found before
          · intro row own
            exact if_neg fun both => consistent.elsewhere apart before (own.symm.trans both.1)
      message := by
        intro key row stored
        exact consistent.message key row (stays stored)
      located := by
        intro key row stored
        exact consistent.still_located mailboxFound follows.2.1.ge (stays stored)
      owned := by
        intro key row stored
        exact isSome_insert (consistent.owned key row (stays stored)) }

theorem Consistent.edit (tame : Tame places) (consistent : Consistent places db)
    (named : place ∈ places) {following : MailDb} (edit : Edit place db following) :
    Consistent places following := by
  cases edit with
  | opened account new address unused => exact consistent.opened named new address unused
  | added mailbox new here empty => exact consistent.added named new here empty
  | appended mailbox following account entry mailboxFound accountFound here numbered follows =>
    exact consistent.appended tame named mailboxFound accountFound here numbered follows
  | flagged uid row flags mailbox following rowFound mailboxFound follows =>
    exact consistent.flagged tame named flags rowFound mailboxFound follows
  | expunged remove mailbox following account paying messages kept mailboxFound accountFound
      follows pays =>
    exact consistent.expunged tame named kept mailboxFound accountFound follows pays

end

end SwStack.Mail
