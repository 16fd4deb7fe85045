import SwStack.Mail.MailAccounting

/-! What each call comes to: a run of edits on the mailboxes it names. -/
namespace SwStack.Mail

open SwStack.Lib SwStack.Types SwStack.EmbeddedDb List

/-- A run of edits on some mailboxes. -/
def Edits (places : Set Place) : MailDb → MailDb → Prop :=
  Relation.ReflTransGen fun db following => ∃ place ∈ places, Edit place db following

variable {place : Place} {db following : MailDb}

theorem Edits.one
    (named : place ∈ places) (edit : Edit place db following) : Edits places db following :=
  .single ⟨place, named, edit⟩

theorem Edits.mono (inside : places ⊆ wider)
    (edits : Edits places db following) : Edits wider db following := by
  refine Relation.ReflTransGen.mono (fun _ _ step => ?_) _ _ edits
  obtain ⟨place, named, edit⟩ := step
  exact ⟨place, inside named, edit⟩

theorem Consistent.edits {touched : Set Place} (tame : Tame places)
    (consistent : Consistent places db) (inside : touched ⊆ places)
    (edits : Edits touched db following) : Consistent places following := by
  induction edits with
  | refl => exact consistent
  | tail _ last ih =>
    obtain ⟨place, named, edit⟩ := last
    exact ih.edit tame (inside named) edit

/-- A mailbox stays, and its next number does not go down. -/
def Grows (db following : MailDb) : Prop :=
  ∀ key mailbox, db.mailboxes.find? key = some mailbox →
    ∃ later, following.mailboxes.find? key = some later ∧ mailbox.uidNext ≤ later.uidNext

theorem grows_insert {mailbox following : SwMailMailbox}
    (found : db.mailboxes.find? key = some mailbox) (up : mailbox.uidNext ≤ following.uidNext)
    (other : Bytes) (before : SwMailMailbox) (known : db.mailboxes.find? other = some before) :
    ∃ later, (db.mailboxes.insert key following).find? other = some later ∧
      before.uidNext ≤ later.uidNext := by
  rw [SortedMap.find?_insert]
  split
  · rename_i same
    rw [same, found] at known
    injection known with known
    exact ⟨following, rfl, known ▸ up⟩
  · exact ⟨before, known, le_rfl⟩

theorem Edit.grows (edit : Edit place db following) : Grows db following := by
  intro key before known
  cases edit with
  | opened account new address unused => exact ⟨before, known, le_rfl⟩
  | added mailbox new here empty =>
    refine ⟨before, ?_, le_rfl⟩
    rw [SortedMap.find?_insert, if_neg]
    · exact known
    · rintro rfl
      rw [new] at known
      cases known
  | appended mailbox next account entry mailboxFound accountFound here numbered follows =>
    refine grows_insert mailboxFound ?_ key before known
    rw [follows]
    exact Nat.le_succ _
  | flagged uid row flags mailbox next rowFound mailboxFound follows =>
    exact grows_insert mailboxFound (le_of_eq follows.2.1.symm) key before known
  | expunged remove mailbox next account paying messages kept mailboxFound accountFound follows
      pays =>
    exact grows_insert mailboxFound (le_of_eq follows.2.1.symm) key before known

theorem Edits.grows (edits : Edits places db following) : Grows db following := by
  induction edits with
  | refl => exact fun key mailbox known => ⟨mailbox, known, le_rfl⟩
  | tail _ last ih =>
    obtain ⟨place, _, edit⟩ := last
    intro key mailbox known
    obtain ⟨middle, found, up⟩ := ih key mailbox known
    obtain ⟨later, stored, further⟩ := edit.grows key middle found
    exact ⟨later, stored, up.trans further⟩

/-- The messages of other mailboxes are what they were. -/
def Leaves (place : Place) (db following : MailDb) : Prop :=
  ∀ key row, row.entry.place ≠ place →
    (following.messages.find? key = some row ↔ db.messages.find? key = some row)

theorem leaves_insert {map : SortedMap Bytes MessageRow} (here : row.entry.place = place)
    (before : ∀ other, map.find? key = some other → other.entry.place = place) (other : Bytes)
    (kept : MessageRow) (apart : kept.entry.place ≠ place) :
    (map.insert key row).find? other = some kept ↔ map.find? other = some kept := by
  rw [SortedMap.find?_insert]
  split
  · rename_i same
    rw [same]
    refine iff_of_false ?_ fun known => apart (before kept known)
    intro known
    injection known with known
    exact apart (known ▸ here)
  · exact Iff.rfl

theorem Edit.leaves (tame : Tame places)
    (named : place ∈ places) (consistent : Consistent places db)
    (edit : Edit place db following) : Leaves place db following := by
  intro key row apart
  cases edit with
  | opened account new address unused => exact Iff.rfl
  | added mailbox new here empty => exact Iff.rfl
  | appended mailbox next account entry mailboxFound accountFound here numbered follows =>
    refine leaves_insert here ?_ key row apart
    intro other known
    exact (consistent.message_place tame named known).1
  | flagged uid changed flags mailbox next rowFound mailboxFound follows =>
    have here : (messageRow { changed.entry with flags }).entry.place = place :=
      (consistent.message_place tame named rowFound).1
    refine leaves_insert here ?_ key row apart
    intro other known
    exact (consistent.message_place tame named known).1
  | expunged remove mailbox next account paying messages kept mailboxFound accountFound follows
      pays =>
    dsimp only
    rw [kept, SortedMap.find?_filter, Option.filter_eq_some_iff, decide_eq_false apart]
    exact and_iff_left rfl

theorem Edits.leaves (tame : Tame places)
    (named : place ∈ places) (consistent : Consistent places db)
    (edits : Edits {place} db following) : Leaves place db following := by
  induction edits with
  | refl => exact fun _ _ _ => Iff.rfl
  | tail first last ih =>
    obtain ⟨_, rfl, edit⟩ := last
    have middle := consistent.edits tame (Set.singleton_subset_iff.mpr named) first
    intro key row apart
    exact (edit.leaves tame named middle key row apart).trans (ih key row apart)

theorem Session.write_cases (session : Session) (batch : List MailOperation) :
    (∃ failure after, session.write batch = (.error failure, after) ∧ after.db = session.db) ∨
      ∃ after, session.write batch = (.ok (), after) ∧
        after.db = batch.foldl MailDb.apply session.db := by
  rw [Session.write]
  split
  · exact .inl ⟨_, _, rfl, rfl⟩
  · exact .inr ⟨_, rfl, rfl⟩

theorem loadAccount_cases (db : MailDb) (place : Place) :
    (∃ account, loadAccount db place.address = .ok account ∧
      db.accounts.find? place.accountKey = some account) ∨
      (loadAccount db place.address = .error notFound ∧
        db.accounts.find? place.accountKey = none) := by
  rw [loadAccount, ← Place.accountKey]
  cases found : db.accounts.find? place.accountKey with
  | none => exact .inr ⟨rfl, rfl⟩
  | some account => exact .inl ⟨account, rfl, rfl⟩

/-- A mailbox that is there now, without a change to accounts and messages. -/
structure Ensured (place : Place) (mailbox : SwMailMailbox) (before after : MailDb) : Prop where
  edits : Edits {place} before after
  found : after.mailboxes.find? place.key = some mailbox
  accounts : after.accounts = before.accounts
  messages : after.messages = before.messages

theorem ensureMailbox_cases (clean : place.Clean) (session : Session) :
    (∃ failure after, ensureMailbox session place.address place.mailbox = (.error failure, after) ∧
      after.db = session.db) ∨
      ∃ mailbox after, ensureMailbox session place.address place.mailbox = (.ok mailbox, after) ∧
        Ensured place mailbox session.db after.db := by
  rw [ensureMailbox, clean.address, clean.mailbox]
  dsimp only
  rw [← Place.key]
  cases found : session.db.mailboxes.find? place.key with
  | some mailbox => exact .inr ⟨mailbox, session, rfl, .refl, found, rfl, rfl⟩
  | none =>
    dsimp only
    rcases session.write_cases [.putMailbox place.key
      { accountAddress := place.address
        name := place.mailbox
        uidNext := 1
        totalCount := 0
        unseenCount := 0 }] with ⟨failure, after, same, kept⟩ | ⟨after, same, written⟩
    · rw [same]
      exact .inl ⟨failure, after, rfl, kept⟩
    · rw [same]
      refine .inr ⟨_, after, rfl, ?_, ?_, ?_, ?_⟩
      · rw [written]
        exact Edits.one rfl (.added _ found rfl ⟨rfl, rfl⟩)
      · rw [written]
        exact SortedMap.find?_insert_self ..
      · rw [written]
        rfl
      · rw [written]
        rfl

section

theorem messageRow_secondaryKey (entry : SwMailMessageEntry) :
    (messageRow entry).secondaryKey = entry.place.secondaryKey entry.uid := by
  rw [messageRow, Place.secondaryKey, SwMailMessageEntry.place]

theorem Consistent.lists_iff (tame : Tame places) (consistent : Consistent places db)
    (named : place ∈ places)
    (stored : db.messages.find? key = some row) :
    place.Lists row.secondaryKey ↔ row.entry.place = place := by
  obtain ⟨member, _, same⟩ := consistent.message key row stored
  have shown := congrArg MessageRow.secondaryKey same
  rw [messageRow_secondaryKey] at shown
  rw [shown]
  constructor
  · intro lists
    by_contra different
    exact (tame.apart _ named _ member (Ne.symm different)).listing _ lists
  · intro own
    rw [own]
    exact (tame.clean _ named).lists_self _

theorem Consistent.listing (tame : Tame places) (consistent : Consistent places db)
    (named : place ∈ places) :
    (listMessagesUnlocked db place.address place.mailbox).Perm
      ((db.messages.entries.filter fun entry => entry.2.entry.place = place).map
        fun entry => entry.2.entry) := by
  have filters : (db.messages.entries.filter fun entry =>
      decide (place.secondaryKey 0 ≤ entry.2.secondaryKey) &&
        Content.before (toKey (place.address ++ 0x1f :: place.mailbox ++ [0x1f, 0xff]))
          entry.2.secondaryKey) =
        db.messages.entries.filter fun entry => entry.2.entry.place = place := by
    refine filter_congr fun entry member => ?_
    rw [Bool.eq_iff_iff, Bool.and_eq_true, decide_eq_true_iff, decide_eq_true_iff]
    exact consistent.lists_iff tame named (SortedMap.find?_of_mem member)
  rw [listMessagesUnlocked, MailDb.scanMessages, ← Place.secondaryKey]
  refine ((perm_insertionSort rowBefore _).map _).trans (List.Perm.of_eq ?_)
  rw [filter_map, map_map, ← filters]
  simp only [Function.comp_def]

end

section

theorem ensureDefaultMailboxes_edits {address : Bytes} {names : List Bytes}
    (clean : ∀ name ∈ names, Place.Clean ⟨address, name⟩) (session : Session) :
    Edits {place | ∃ name ∈ names, place = ⟨address, name⟩} session.db
      (ensureDefaultMailboxes address names session).2.db := by
  induction names generalizing session with
  | nil => exact .refl
  | cons name names ih =>
    obtain ⟨here, rest⟩ := forall_mem_cons.mp clean
    have first : Edits {place | ∃ other ∈ name :: names, place = ⟨address, other⟩} session.db
        (ensureMailbox session address name).2.db := by
      rcases ensureMailbox_cases here session with
        ⟨failure, after, same, kept⟩ | ⟨mailbox, after, same, ensured⟩
      · rw [same, kept]
        exact .refl
      · rw [same]
        refine ensured.edits.mono ?_
        rintro _ rfl
        exact ⟨name, mem_cons_self .., rfl⟩
    rw [ensureDefaultMailboxes]
    cases ensured : ensureMailbox session address name with
    | mk result after =>
      rw [ensured] at first
      cases result with
      | error failure => exact first
      | ok mailbox =>
        refine first.trans ((ih rest after).mono ?_)
        rintro _ ⟨other, listed, rfl⟩
        exact ⟨other, mem_cons_of_mem _ listed, rfl⟩

/-- The mailboxes that a new account gets. -/
def defaultPlaces (address : Bytes) : List Place := defaultMailboxNames.map (Mail.place address)

theorem mem_defaultPlaces : place ∈ defaultPlaces address ↔
      ∃ name ∈ defaultMailboxNames, place = ⟨canonicalAddress address, name⟩ := by
  have normal : ∀ name ∈ defaultMailboxNames, normalizeMailboxName name = name := by decide
  rw [defaultPlaces, mem_map]
  constructor
  · rintro ⟨name, listed, rfl⟩
    refine ⟨name, listed, ?_⟩
    rw [Mail.place, normal name listed]
  · rintro ⟨name, listed, rfl⟩
    refine ⟨name, listed, ?_⟩
    rw [Mail.place, normal name listed]

theorem createAccount_edits
    (clean : ∀ place ∈ defaultPlaces address, place.Clean) (session : Session)
    (password : Bytes) :
    Edits {place | place ∈ defaultPlaces address} session.db
      (createAccount session address password).2.db := by
  obtain ⟨inbox, listed, own⟩ :
      ∃ inbox ∈ defaultPlaces address, inbox.address = canonicalAddress address := by
    refine ⟨Mail.place address (ascii "INBOX"), ?_, ?_⟩
    · rw [defaultPlaces, defaultMailboxNames, map_cons]
      exact mem_cons_self ..
    · rw [Mail.place]
  have mailboxes (after : Session) :=
    @ensureDefaultMailboxes_edits (canonicalAddress address) defaultMailboxNames
      (fun name named => clean _ (mem_defaultPlaces.mpr ⟨name, named, rfl⟩)) after
  have defaults : {place | ∃ name ∈ defaultMailboxNames,
      place = (⟨canonicalAddress address, name⟩ : Place)} ⊆
        {place | place ∈ defaultPlaces address} :=
    fun _ named => mem_defaultPlaces.mpr named
  rw [createAccount]
  rw [← own] at mailboxes defaults ⊢
  cases splitAddress address with
  | none => exact .refl
  | some parts =>
    dsimp only
    rcases loadAccount_cases session.db inbox with ⟨account, loaded, _⟩ | ⟨missing, new⟩
    · rw [loaded]
      exact .refl
    · rw [missing]
      dsimp only
      split
      · exact .refl
      · rcases session.write_cases [.putAccount (toKey (accountKey inbox.address))
          { address := inbox.address
            domain := parts.2
            localPart := parts.1
            canReceive := true
            suspended := false
            usedBytes := 0 }] with ⟨failure, after, same, kept⟩ | ⟨after, same, written⟩
        · rw [same]
          dsimp only
          rw [kept]
          exact .refl
        · rw [same]
          dsimp only
          have opened : Edits {place | place ∈ defaultPlaces address} session.db after.db := by
            rw [written]
            exact Edits.one listed (.opened _ new rfl rfl)
          have whole := opened.trans ((mailboxes after).mono defaults)
          cases ensured : ensureDefaultMailboxes inbox.address defaultMailboxNames after with
          | mk result last =>
            rw [ensured] at whole
            cases result with
            | error failure => exact whole
            | ok done => exact whole

theorem place_address (accountAddress mailboxName : Bytes) :
    (Mail.place accountAddress mailboxName).address = canonicalAddress accountAddress := by
  rw [Mail.place]

theorem place_mailbox (accountAddress mailboxName : Bytes) :
    (Mail.place accountAddress mailboxName).mailbox = normalizeMailboxName mailboxName := by
  rw [Mail.place]

/-- What an appended message is numbered after and followed by. -/
structure Numbered (place : Place) (entry : SwMailMessageEntry) (before after : MailDb) : Prop where
  here : entry.place = place
  next : ∃ middle mailbox, Edits {place} before middle ∧
    middle.mailboxes.find? place.key = some mailbox ∧ entry.uid = mailbox.uidNext
  above : ∃ mailbox, after.mailboxes.find? place.key = some mailbox ∧ entry.uid < mailbox.uidNext

/-- What a call that may append a message comes to. -/
structure Appends (place : Place) (session : Session)
    (outcome : Except DbStatus SwMailMessageEntry × Session) : Prop where
  edits : Edits {place} session.db outcome.2.db
  numbered : ∀ entry, outcome.1 = .ok entry → Numbered place entry session.db outcome.2.db

theorem Appends.refused {after : Session} (edits : Edits {place} session.db after.db)
    (failure : DbStatus) : Appends place session (.error failure, after) :=
  ⟨edits, fun _ same => by cases same⟩

theorem unseen_appended {entry : SwMailMessageEntry} (here : entry.place = place)
    {flags : List Bytes} (same : entry.flags = flags) (count : Nat) :
    (if hasSeenFlag flags then count else count + 1) =
      count + heldUnseen place (messageRow entry) := by
  rw [heldUnseen, ← same]
  by_cases seen : hasSeenFlag entry.flags = true
  · have counted : ¬((messageRow entry).entry.place = place ∧
        hasSeenFlag (messageRow entry).entry.flags = false) :=
      fun both => Bool.false_ne_true (both.2.symm.trans seen)
    rw [if_pos seen, if_neg counted, Nat.add_zero]
  · have counted : (messageRow entry).entry.place = place ∧
        hasSeenFlag (messageRow entry).entry.flags = false :=
      ⟨here, Bool.not_eq_true _ ▸ seen⟩
    rw [if_neg seen, if_pos counted]

theorem appendMessage_appends (tame : Tame places)
    (consistent : Consistent places session.db) (config : SwMailConfig) (now : Bytes)
    (named : place ∈ places)
    (means : Mail.place accountAddress mailboxName = place) (rawMessage : Bytes)
    (flags : List Bytes) (internalDate : Bytes) :
    Appends place session (appendMessage config now session accountAddress mailboxName rawMessage
      flags internalDate) := by
  have clean := tame.clean _ named
  have address := place_address accountAddress mailboxName
  have mailboxNamed := place_mailbox accountAddress mailboxName
  rw [means] at address mailboxNamed
  rw [appendMessage, ← address, ← mailboxNamed]
  dsimp only
  split
  · exact .refused .refl _
  · split
    · exact .refused .refl _
    · rcases loadAccount_cases session.db place with ⟨account, loaded, known⟩ | ⟨missing, _⟩
      · rw [loaded]
        dsimp only
        have owner := consistent.account_address tame named known
        split
        · exact .refused .refl _
        · rcases ensureMailbox_cases clean session with
            ⟨failure, after, same, kept⟩ | ⟨mailbox, middle, same, ensured⟩
          · rw [same]
            refine .refused ?_ failure
            rw [kept]
            exact .refl
          · have middleConsistent := consistent.edits tame
              (Set.singleton_subset_iff.mpr named) ensured.edits
            have mailboxPlace := middleConsistent.mailbox_place tame named ensured.found
            have mailboxName : mailbox.name = place.mailbox := by
              rw [← mailboxPlace]
              rfl
            rw [same]
            dsimp only
            have accountKey : toKey (Mail.accountKey account.address) = place.accountKey := by
              rw [owner, Place.accountKey]
            rw [accountKey, mailboxName, ← Place.key, ← Place.messageKey]
            have accountFound : middle.db.accounts.find? place.accountKey = some account := by
              rw [ensured.accounts]
              exact known
            generalize writes : middle.write _ = outcome
            rcases middle.write_cases _ with ⟨failure, after, wrote, kept⟩ | ⟨after, wrote, written⟩
            · rw [wrote] at writes
              subst writes
              refine .refused ?_ failure
              rw [kept]
              exact ensured.edits
            · rw [wrote] at writes
              subst writes
              have edit : Edit place middle.db after.db := by
                rw [written]
                refine .appended mailbox _ account
                  { accountAddress := place.address
                    mailboxName := place.mailbox
                    uid := mailbox.uidNext
                    flags
                    internalDate := if internalDate = [] then now else internalDate
                    sizeBytes := rawMessage.length
                    rawMessage } ensured.found accountFound rfl rfl ?_
                rw [SwMailMailbox.mk.injEq]
                refine ⟨rfl, mailboxName.symm, rfl, rfl, ?_⟩
                refine unseen_appended ?_ ?_ _
                · rfl
                · rfl
              have above : ∃ following, after.db.mailboxes.find? place.key = some following ∧
                  mailbox.uidNext < following.uidNext := by
                rw [written]
                refine ⟨_, SortedMap.find?_insert_self .., ?_⟩
                exact Nat.lt_succ_self mailbox.uidNext
              dsimp only
              exact
                { edits := ensured.edits.trans (Edits.one rfl edit)
                  numbered := by
                    intro entry made
                    injection made with made
                    subst made
                    exact ⟨rfl, ⟨middle.db, mailbox, ensured.edits, ensured.found, rfl⟩, above⟩ }
      · rw [missing]
        exact .refused .refl _

theorem copyMessage_appends (tame : Tame places)
    (consistent : Consistent places session.db) (config : SwMailConfig) (now : Bytes)
    {targetMailbox : Bytes} (named : place ∈ places)
    (means : Mail.place accountAddress targetMailbox = place) (sourceMailbox : Bytes) (uid : Nat) :
    Appends place session
      (copyMessage config now session accountAddress sourceMailbox uid targetMailbox) := by
  rw [copyMessage]
  cases getMessageUnlocked session.db (canonicalAddress accountAddress)
      (normalizeMailboxName sourceMailbox) uid with
  | error failure => exact .refused .refl failure
  | ok entry =>
    exact appendMessage_appends tame consistent config now named means entry.rawMessage
      entry.flags entry.internalDate

theorem getMessageUnlocked_cases (db : MailDb) (place : Place) (uid : Nat) :
    (∃ row, getMessageUnlocked db place.address place.mailbox uid = .ok row.entry ∧
      db.messages.find? (place.messageKey uid) = some row) ∨
      getMessageUnlocked db place.address place.mailbox uid = .error notFound := by
  rw [getMessageUnlocked, ← Place.messageKey]
  cases found : db.messages.find? (place.messageKey uid) with
  | none => exact .inr rfl
  | some row => exact .inl ⟨row, rfl, rfl⟩

theorem measure_le_weight {map : SortedMap Bytes MessageRow}
    (found : map.find? key = some row) (measure : MessageRow → Nat) :
    measure row ≤ map.weight measure := by
  rw [SortedMap.weight_erase measure found]
  exact Nat.le_add_right _ _

/-- The counter of unseen messages follows the flags. -/
theorem unseen_flagged (here : row.entry.place = place) (flags : List Bytes)
    {count : Nat} (enough : heldUnseen place row ≤ count) :
    (if hasSeenFlag row.entry.flags ≠ hasSeenFlag flags then
      if hasSeenFlag flags then (if 0 < count then count - 1 else 0) else count + 1
    else count) + heldUnseen place row =
      count + heldUnseen place (messageRow { row.entry with flags }) := by
  have before : heldUnseen place row = if hasSeenFlag row.entry.flags then 0 else 1 := by
    rw [heldUnseen]
    cases hasSeenFlag row.entry.flags with
    | true => exact if_neg fun both => Bool.noConfusion both.2
    | false => exact if_pos ⟨here, rfl⟩
  have after : heldUnseen place (messageRow { row.entry with flags }) =
      if hasSeenFlag flags then 0 else 1 := by
    rw [heldUnseen]
    change (if row.entry.place = place ∧ hasSeenFlag flags = false then 1 else 0) = _
    cases hasSeenFlag flags with
    | true => exact if_neg fun both => Bool.noConfusion both.2
    | false => exact if_pos ⟨here, rfl⟩
  rw [before] at enough ⊢
  rw [after]
  generalize hasSeenFlag row.entry.flags = previously at enough ⊢
  generalize hasSeenFlag flags = now
  cases previously with
  | true =>
    cases now with
    | true => rfl
    | false => rfl
  | false =>
    cases now with
    | true =>
      have positive : 0 < count := enough
      simp only [ne_eq, not_false_eq_true, if_true, positive, Bool.false_eq_true, if_false]
      omega
    | false => rfl

theorem setMessageFlags_edits (tame : Tame places) (consistent : Consistent places session.db)
    (named : place ∈ places) (means : Mail.place accountAddress mailboxName = place) (uid : Nat)
    (flags : List Bytes) :
    Edits {place} session.db
      (setMessageFlags session accountAddress mailboxName uid flags).2.db := by
  have clean := tame.clean _ named
  have address := place_address accountAddress mailboxName
  have mailboxNamed := place_mailbox accountAddress mailboxName
  rw [means] at address mailboxNamed
  rw [setMessageFlags, ← address, ← mailboxNamed]
  dsimp only
  rcases getMessageUnlocked_cases session.db place uid with ⟨row, loaded, known⟩ | missing
  · rw [loaded]
    dsimp only
    rcases ensureMailbox_cases clean session with
      ⟨failure, after, same, kept⟩ | ⟨mailbox, middle, same, ensured⟩
    · rw [same]
      dsimp only
      rw [kept]
      exact .refl
    · rw [same]
      dsimp only
      have middleConsistent := consistent.edits tame (Set.singleton_subset_iff.mpr named)
        ensured.edits
      have mailboxPlace := middleConsistent.mailbox_place tame named ensured.found
      have rowFound : middle.db.messages.find? (place.messageKey uid) = some row := by
        rw [ensured.messages]
        exact known
      have here := (consistent.message_place tame named known).1
      rw [← Place.key, ← Place.messageKey]
      generalize writes : middle.write _ = outcome
      rcases middle.write_cases _ with ⟨failure, after, wrote, kept⟩ | ⟨after, wrote, written⟩
      · rw [wrote] at writes
        subst writes
        dsimp only
        rw [kept]
        exact ensured.edits
      · rw [wrote] at writes
        subst writes
        dsimp only
        rw [written]
        refine ensured.edits.trans (Edits.one rfl ?_)
        refine .flagged uid row flags mailbox _ rowFound ensured.found ⟨rfl, rfl, rfl, ?_⟩
        have enough := measure_le_weight rowFound (heldUnseen place)
        have counted := middleConsistent.unseen _ mailbox ensured.found
        rw [mailboxPlace] at counted
        rw [← counted] at enough
        exact unseen_flagged here flags enough
  · rw [missing]
    exact .refl

def isDeleted (row : MessageRow) : Bool := hasDeletedFlag row.entry.flags

/-- The rows that an expunge takes away. -/
def expungedRows (db : MailDb) (place : Place) : List (Bytes × MessageRow) :=
  db.messages.entries.filter fun entry =>
    !!(decide (entry.2.entry.place = place) && isDeleted entry.2)

/-- The messages after an expunge. -/
def keptMessages (db : MailDb) (place : Place) : SortedMap Bytes MessageRow :=
  db.messages.filter fun _ row => !(decide (row.entry.place = place) && isDeleted row)

theorem expunged_perm (tame : Tame places) (consistent : Consistent places db)
    (named : place ∈ places) :
    ((listMessagesUnlocked db place.address place.mailbox).filter
      fun entry => hasDeletedFlag entry.flags).Perm
        ((expungedRows db place).map fun entry => entry.2.entry) := by
  refine ((consistent.listing tame named).filter _).trans (List.Perm.of_eq ?_)
  rw [filter_map, filter_filter, expungedRows]
  congr 1
  refine filter_congr fun entry _ => ?_
  rw [Bool.not_not, Bool.and_comm]
  rfl

theorem mem_expungedRows {entry : Bytes × MessageRow} :
    entry ∈ expungedRows db place ↔ db.messages.find? entry.1 = some entry.2 ∧
      entry.2.entry.place = place ∧ isDeleted entry.2 = true := by
  rw [expungedRows, mem_filter, Bool.not_not, Bool.and_eq_true, decide_eq_true_iff,
    SortedMap.find?_eq_some_iff]

theorem find?_foldl_erase (keys : List Bytes) (map : SortedMap Bytes MessageRow) (key : Bytes) :
    (keys.foldl SortedMap.erase map).find? key = if key ∈ keys then none else map.find? key := by
  induction keys generalizing map with
  | nil => rfl
  | cons first keys ih =>
    rw [foldl_cons, ih, SortedMap.find?_erase]
    by_cases later : key ∈ keys
    · rw [if_pos later, if_pos (mem_cons_of_mem _ later)]
    · rw [if_neg later]
      by_cases same : key = first
      · rw [if_pos same, if_pos (mem_cons.mpr (.inl same))]
      · rw [if_neg same, if_neg fun member => (mem_cons.mp member).elim same later]

theorem foldl_eraseMessage (keys : List Bytes) (db : MailDb) :
    (keys.map MailOperation.eraseMessage).foldl MailDb.apply db =
      { db with messages := keys.foldl SortedMap.erase db.messages } := by
  induction keys generalizing db with
  | nil => rfl
  | cons key keys ih => exact ih _

/-- Erasing the listed messages leaves the kept ones. -/
theorem erased_eq_kept (consistent : Consistent places db) {removed : List SwMailMessageEntry}
    (perm : removed.Perm ((expungedRows db place).map fun entry => entry.2.entry)) :
    (removed.map fun entry => place.messageKey entry.uid).foldl SortedMap.erase db.messages =
      keptMessages db place := by
  have taken (key : Bytes) : key ∈ (removed.map fun entry => place.messageKey entry.uid) ↔
      ∃ row, db.messages.find? key = some row ∧ row.entry.place = place ∧
        isDeleted row = true := by
    rw [mem_map]
    constructor
    · rintro ⟨entry, member, rfl⟩
      obtain ⟨listed, inside, rfl⟩ := mem_map.mp (perm.mem_iff.mp member)
      obtain ⟨stored, here, deleted⟩ := mem_expungedRows.mp inside
      have key := (consistent.message _ _ stored).2.1
      rw [here] at key
      exact ⟨listed.2, key ▸ stored, here, deleted⟩
    · rintro ⟨row, stored, here, deleted⟩
      have member : row.entry ∈ removed :=
        perm.mem_iff.mpr (mem_map.mpr ⟨(key, row), mem_expungedRows.mpr
          ⟨stored, here, deleted⟩, rfl⟩)
      have same := (consistent.message _ _ stored).2.1
      rw [here] at same
      exact ⟨row.entry, member, same.symm⟩
  refine SortedMap.ext_find? fun key => ?_
  rw [find?_foldl_erase, keptMessages, SortedMap.find?_filter]
  by_cases gone : key ∈ removed.map fun entry => place.messageKey entry.uid
  · obtain ⟨row, stored, here, deleted⟩ := (taken key).mp gone
    rw [if_pos gone, stored, Option.filter_some, decide_eq_true here, deleted]
    rfl
  · rw [if_neg gone]
    cases stored : db.messages.find? key with
    | none => rfl
    | some row =>
      have stays : (decide (row.entry.place = place) && isDeleted row) = false := by
        rw [Bool.eq_false_iff]
        intro both
        rw [Bool.and_eq_true, decide_eq_true_iff] at both
        exact gone ((taken key).mpr ⟨row, stored, both⟩)
      rw [Option.filter_some, stays]
      rfl

theorem weight_kept (db : MailDb) (place : Place) (measure : MessageRow → Nat) :
    db.messages.weight measure = (keptMessages db place).weight measure +
      ((expungedRows db place).map fun entry => measure entry.2).sum :=
  SortedMap.weight_filter measure db.messages fun _ row =>
    !(decide (row.entry.place = place) && isDeleted row)

/-- The counts of an expunge are the sums over what is taken away. -/
theorem expunged_sums {removed : List SwMailMessageEntry}
    (perm : removed.Perm ((expungedRows db place).map fun entry => entry.2.entry)) :
    removed.length = ((expungedRows db place).map fun entry => heldCount place entry.2).sum ∧
      (removed.filter fun entry => !hasSeenFlag entry.flags).length =
        ((expungedRows db place).map fun entry => heldUnseen place entry.2).sum ∧
      (removed.map (·.sizeBytes)).sum =
        ((expungedRows db place).map fun entry => heldBytes place.address entry.2).sum := by
  have own : ∀ entry ∈ expungedRows db place, entry.2.entry.place = place :=
    fun entry member => (mem_expungedRows.mp member).2.1
  have sums {measure : MessageRow → Nat} {value : SwMailMessageEntry → Nat}
      (same : ∀ row, row.entry.place = place → measure row = value row.entry) :
      ((expungedRows db place).map fun entry => measure entry.2).sum =
        (removed.map value).sum := by
    rw [(perm.map value).sum_eq, map_map]
    exact congrArg List.sum (map_congr_left fun entry member =>
      same entry.2 (own entry member))
  refine ⟨?_, ?_, ?_⟩
  · rw [@sums (heldCount place) (fun _ => 1) fun row here => if_pos here]
    simp
  · rw [@sums (heldUnseen place) (fun entry => if hasSeenFlag entry.flags then 0 else 1)]
    · clear sums own perm
      induction removed with
      | nil => rfl
      | cons entry removed ih =>
        rw [filter_cons, map_cons, sum_cons, ← ih]
        cases hasSeenFlag entry.flags with
        | true => exact (Nat.zero_add _).symm
        | false => exact Nat.add_comm _ _
    · intro row here
      rw [heldUnseen]
      cases hasSeenFlag row.entry.flags with
      | true => exact if_neg fun both => Bool.noConfusion both.2
      | false => exact if_pos ⟨here, rfl⟩
  · rw [@sums (heldBytes place.address) (fun entry => entry.sizeBytes)]
    intro row here
    refine if_pos ?_
    rw [← here]
    rfl

theorem clamped {total kept removed : Nat} (sum : total = kept + removed) :
    (if removed < total then total - removed else 0) = kept := by
  split
  · omega
  · omega

theorem expungeMailbox_edits (tame : Tame places) (consistent : Consistent places session.db)
    (named : place ∈ places) (means : Mail.place accountAddress mailboxName = place) :
    Edits {place} session.db (expungeMailbox session accountAddress mailboxName).2.db := by
  have clean := tame.clean _ named
  have address := place_address accountAddress mailboxName
  have mailboxNamed := place_mailbox accountAddress mailboxName
  rw [means] at address mailboxNamed
  rw [expungeMailbox, ← address, ← mailboxNamed]
  dsimp only
  rcases loadAccount_cases session.db place with ⟨account, loaded, known⟩ | ⟨missing, _⟩
  · rw [loaded]
    dsimp only
    have owner := consistent.account_address tame named known
    rcases ensureMailbox_cases clean session with
      ⟨failure, after, same, kept⟩ | ⟨mailbox, middle, same, ensured⟩
    · rw [same]
      dsimp only
      rw [kept]
      exact .refl
    · rw [same]
      dsimp only
      have middleConsistent := consistent.edits tame (Set.singleton_subset_iff.mpr named)
        ensured.edits
      have mailboxPlace := middleConsistent.mailbox_place tame named ensured.found
      have accountFound : middle.db.accounts.find? place.accountKey = some account := by
        rw [ensured.accounts]
        exact known
      have accountKey : toKey (Mail.accountKey account.address) = place.accountKey := by
        rw [owner, Place.accountKey]
      have perm := expunged_perm tame middleConsistent named
      generalize (listMessagesUnlocked middle.db place.address place.mailbox).filter
        (fun entry => hasDeletedFlag entry.flags) = removed at perm ⊢
      obtain ⟨count, unseen, bytes⟩ := expunged_sums perm
      split
      · exact ensured.edits
      · rw [accountKey, ← Place.key]
        generalize writes : middle.write _ = outcome
        rcases middle.write_cases _ with ⟨failure, after, wrote, kept⟩ | ⟨after, wrote, written⟩
        · rw [wrote] at writes
          subst writes
          dsimp only
          rw [kept]
          exact ensured.edits
        · rw [wrote] at writes
          subst writes
          dsimp only
          have messageKeys : removed.map (fun entry =>
              MailOperation.eraseMessage (toKey (messageKey place.address place.mailbox entry.uid))) =
                (removed.map fun entry => place.messageKey entry.uid).map
                  MailOperation.eraseMessage := by
            rw [map_map]
            rfl
          rw [written, foldl_append, messageKeys, foldl_eraseMessage,
            erased_eq_kept middleConsistent perm]
          refine ensured.edits.trans (Edits.one rfl ?_)
          have total := middleConsistent.total _ mailbox ensured.found
          have unseenCount := middleConsistent.unseen _ mailbox ensured.found
          have used := middleConsistent.used _ account accountFound
          rw [mailboxPlace, weight_kept, ← count] at total
          rw [mailboxPlace, weight_kept, ← unseen] at unseenCount
          rw [owner, weight_kept, ← bytes] at used
          exact .expunged isDeleted mailbox _ account _ _ rfl ensured.found accountFound
            ⟨rfl, rfl, clamped total, clamped unseenCount⟩ ⟨rfl, clamped used⟩
  · rw [missing]
    exact .refl

end

end SwStack.Mail
