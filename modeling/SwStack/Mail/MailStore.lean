import SwStack.Mail.Address
import SwStack.EmbeddedDb.Content

/-! The mail store over a database. Records of different kinds stand under keys that start
differently, so each kind has a map of its own; a record is read back as it was written. -/
namespace SwStack.Mail

open SwStack.Lib SwStack.Types SwStack.EmbeddedDb

structure SwMailAccount where
  address : Bytes
  domain : Bytes
  localPart : Bytes
  canReceive : Bool
  suspended : Bool
  usedBytes : Nat
  deriving DecidableEq

structure SwMailMailbox where
  accountAddress : Bytes
  name : Bytes
  uidNext : Nat
  totalCount : Nat
  unseenCount : Nat
  deriving DecidableEq

structure SwMailMessageEntry where
  accountAddress : Bytes
  mailboxName : Bytes
  uid : Nat
  flags : List Bytes
  internalDate : Bytes
  sizeBytes : Nat
  rawMessage : Bytes
  deriving DecidableEq

def hasSeenFlag (flags : List Bytes) : Bool :=
  flags.any fun flag => SwString.toLower flag = ascii "\\seen"

def hasDeletedFlag (flags : List Bytes) : Bool :=
  flags.any fun flag => SwString.toLower flag = ascii "\\deleted"

/-- `toPrimaryKey_` and `toSecondaryKey_`. -/
def toKey (key : Bytes) : Bytes := SwString.toUtf8 key

def accountKey (address : Bytes) : Bytes := ascii "acct/" ++ canonicalAddress address

def mailboxKey (accountAddress mailboxName : Bytes) : Bytes :=
  ascii "mbx/" ++ canonicalAddress accountAddress ++ 0x2f :: normalizeMailboxName mailboxName

def messageKey (accountAddress mailboxName : Bytes) (uid : Nat) : Bytes :=
  ascii "msg/" ++ canonicalAddress accountAddress ++ 0x2f :: normalizeMailboxName mailboxName ++
    0x2f :: paddedNumber uid

def messagesSecondaryKey (accountAddress mailboxName : Bytes) (uid : Nat) : Bytes :=
  canonicalAddress accountAddress ++ 0x1f :: normalizeMailboxName mailboxName ++
    0x1f :: paddedNumber uid

/-- A message with its key in the index of messages. -/
structure MessageRow where
  entry : SwMailMessageEntry
  secondaryKey : Bytes

structure MailDb where
  accounts : SortedMap Bytes SwMailAccount
  mailboxes : SortedMap Bytes SwMailMailbox
  messages : SortedMap Bytes MessageRow

def MailDb.empty : MailDb := { accounts := ∅, mailboxes := ∅, messages := ∅ }

inductive MailOperation where
  | putAccount (key : Bytes) (account : SwMailAccount)
  | putMailbox (key : Bytes) (mailbox : SwMailMailbox)
  | putMessage (key : Bytes) (row : MessageRow)
  | eraseMessage (key : Bytes)

def MailDb.apply (db : MailDb) : MailOperation → MailDb
  | .putAccount key account => { db with accounts := db.accounts.insert key account }
  | .putMailbox key mailbox => { db with mailboxes := db.mailboxes.insert key mailbox }
  | .putMessage key row => { db with messages := db.messages.insert key row }
  | .eraseMessage key => { db with messages := db.messages.erase key }

/-- The database and what the next writes come to: `none` is success. -/
structure Session where
  db : MailDb
  outcomes : List (Option DbStatus)

/-- A batch is written as a whole or not at all. -/
def Session.write (session : Session) (batch : List MailOperation) :
    Except DbStatus Unit × Session :=
  match session.outcomes with
  | some failure :: outcomes => (.error failure, { session with outcomes })
  | outcomes => (.ok (), { db := batch.foldl MailDb.apply session.db, outcomes := outcomes.tail })

def rowBefore (left right : MessageRow × Bytes) : Prop :=
  left.1.secondaryKey < right.1.secondaryKey ∨
    (left.1.secondaryKey = right.1.secondaryKey ∧ left.2 ≤ right.2)

instance : DecidableRel rowBefore := fun _ _ =>
  inferInstanceAs (Decidable (_ ∨ (_ ∧ _)))

/-- `scanIndex` over the index of messages: in the order of the index keys, then of the primary
keys. -/
def MailDb.scanMessages (db : MailDb) (start stop : Bytes) : List SwMailMessageEntry :=
  let rows := db.messages.entries.map fun row => (row.2, row.1)
  let found := rows.filter fun row =>
    start ≤ row.1.secondaryKey && Content.before stop row.1.secondaryKey
  (found.insertionSort rowBefore).map fun row => row.1.entry

def notFound : DbStatus := ⟨.notFound, "primary key not found"⟩

def loadAccount (db : MailDb) (address : Bytes) : Except DbStatus SwMailAccount :=
  match db.accounts.find? (toKey (accountKey address)) with
  | some account => .ok account
  | none => .error notFound

def getMessageUnlocked (db : MailDb) (accountAddress mailboxName : Bytes) (uid : Nat) :
    Except DbStatus SwMailMessageEntry :=
  match db.messages.find? (toKey (messageKey accountAddress mailboxName uid)) with
  | some row => .ok row.entry
  | none => .error notFound

def listMessagesUnlocked (db : MailDb) (accountAddress mailboxName : Bytes) :
    List SwMailMessageEntry :=
  db.scanMessages (toKey (messagesSecondaryKey accountAddress mailboxName 0))
    (toKey (accountAddress ++ 0x1f :: mailboxName ++ [0x1f, 0xff]))

def ensureMailbox (session : Session) (accountAddress mailboxName : Bytes) :
    Except DbStatus SwMailMailbox × Session :=
  let normalizedAddress := canonicalAddress accountAddress
  let normalizedMailbox := normalizeMailboxName mailboxName
  let key := toKey (mailboxKey normalizedAddress normalizedMailbox)
  match session.db.mailboxes.find? key with
  | some mailbox => (.ok mailbox, session)
  | none =>
    let mailbox : SwMailMailbox :=
      { accountAddress := normalizedAddress
        name := normalizedMailbox
        uidNext := 1
        totalCount := 0
        unseenCount := 0 }
    match session.write [.putMailbox key mailbox] with
    | (.ok (), session) => (.ok mailbox, session)
    | (.error failure, session) => (.error failure, session)

def defaultMailboxNames : List Bytes :=
  [ascii "INBOX", ascii "Sent", ascii "Drafts", ascii "Trash", ascii "Junk"]

def ensureDefaultMailboxes (accountAddress : Bytes) :
    List Bytes → Session → Except DbStatus Unit × Session
  | [], session => (.ok (), session)
  | name :: names, session =>
    match ensureMailbox session accountAddress name with
    | (.ok _, session) => ensureDefaultMailboxes accountAddress names session
    | (.error failure, session) => (.error failure, session)

def messageRow (entry : SwMailMessageEntry) : MessageRow :=
  { entry
    secondaryKey :=
      toKey (messagesSecondaryKey entry.accountAddress entry.mailboxName entry.uid) }

structure SwMailConfig where
  maxMessageBytes : Nat

def invalidArgument (message : String) : DbStatus := ⟨.invalidArgument, message⟩

def createAccount (session : Session) (address password : Bytes) :
    Except DbStatus SwMailAccount × Session :=
  match splitAddress address with
  | none => (.error (invalidArgument "Invalid account address"), session)
  | some (localPart, domain) =>
    match loadAccount session.db (canonicalAddress address) with
    | .ok _ => (.error ⟨.busy, "Account already exists"⟩, session)
    | .error _ =>
      if password.length < 4 then (.error (invalidArgument "Password too short"), session)
      else
        let account : SwMailAccount :=
          { address := canonicalAddress address
            domain
            localPart
            canReceive := true
            suspended := false
            usedBytes := 0 }
        match session.write [.putAccount (toKey (accountKey account.address)) account] with
        | (.error failure, session) => (.error failure, session)
        | (.ok (), session) =>
          match ensureDefaultMailboxes account.address defaultMailboxNames session with
          | (.error failure, session) => (.error failure, session)
          | (.ok (), session) => (.ok account, session)

/-- `now` is the timestamp that stands in for a missing date. -/
def appendMessage (config : SwMailConfig) (now : Bytes) (session : Session)
    (accountAddress mailboxName rawMessage : Bytes) (flags : List Bytes) (internalDate : Bytes) :
    Except DbStatus SwMailMessageEntry × Session :=
  if rawMessage.length = 0 then (.error (invalidArgument "Message body is empty"), session)
  else if config.maxMessageBytes < rawMessage.length then
    (.error (invalidArgument "Message exceeds maximum size"), session)
  else
    let normalizedAddress := canonicalAddress accountAddress
    match loadAccount session.db normalizedAddress with
    | .error failure => (.error failure, session)
    | .ok account =>
      if account.suspended ∨ !account.canReceive then
        (.error (invalidArgument "Account cannot receive mail"), session)
      else
        match ensureMailbox session normalizedAddress (normalizeMailboxName mailboxName) with
        | (.error failure, session) => (.error failure, session)
        | (.ok mailbox, session) =>
          let entry : SwMailMessageEntry :=
            { accountAddress := normalizedAddress
              mailboxName := mailbox.name
              uid := mailbox.uidNext
              flags
              internalDate := if internalDate = [] then now else internalDate
              sizeBytes := rawMessage.length
              rawMessage }
          let mailbox :=
            { mailbox with
              uidNext := mailbox.uidNext + 1
              totalCount := mailbox.totalCount + 1
              unseenCount :=
                if hasSeenFlag entry.flags then mailbox.unseenCount else mailbox.unseenCount + 1 }
          let account := { account with usedBytes := account.usedBytes + entry.sizeBytes }
          match session.write
            [.putMailbox (toKey (mailboxKey normalizedAddress mailbox.name)) mailbox,
              .putMessage (toKey (messageKey normalizedAddress mailbox.name entry.uid))
                (messageRow entry),
              .putAccount (toKey (accountKey account.address)) account] with
          | (.error failure, session) => (.error failure, session)
          | (.ok (), session) => (.ok entry, session)

def listMessages (db : MailDb) (accountAddress mailboxName : Bytes) : List SwMailMessageEntry :=
  listMessagesUnlocked db (canonicalAddress accountAddress) (normalizeMailboxName mailboxName)

def setMessageFlags (session : Session) (accountAddress mailboxName : Bytes) (uid : Nat)
    (flags : List Bytes) : Except DbStatus Unit × Session :=
  let normalizedAddress := canonicalAddress accountAddress
  let normalizedMailbox := normalizeMailboxName mailboxName
  match getMessageUnlocked session.db normalizedAddress normalizedMailbox uid with
  | .error failure => (.error failure, session)
  | .ok entry =>
    match ensureMailbox session normalizedAddress normalizedMailbox with
    | (.error failure, session) => (.error failure, session)
    | (.ok mailbox, session) =>
      let previouslySeen := hasSeenFlag entry.flags
      let entry := { entry with flags }
      let nowSeen := hasSeenFlag entry.flags
      let unseenCount :=
        if previouslySeen ≠ nowSeen then
          if nowSeen then (if 0 < mailbox.unseenCount then mailbox.unseenCount - 1 else 0)
          else mailbox.unseenCount + 1
        else mailbox.unseenCount
      session.write
        [.putMailbox (toKey (mailboxKey normalizedAddress normalizedMailbox))
            { mailbox with unseenCount },
          .putMessage (toKey (messageKey normalizedAddress normalizedMailbox uid))
            (messageRow entry)]

def copyMessage (config : SwMailConfig) (now : Bytes) (session : Session)
    (accountAddress sourceMailbox : Bytes) (uid : Nat) (targetMailbox : Bytes) :
    Except DbStatus SwMailMessageEntry × Session :=
  match getMessageUnlocked session.db (canonicalAddress accountAddress)
      (normalizeMailboxName sourceMailbox) uid with
  | .error failure => (.error failure, session)
  | .ok entry =>
    appendMessage config now session accountAddress targetMailbox entry.rawMessage entry.flags
      entry.internalDate

/-- The number of messages removed. -/
def expungeMailbox (session : Session) (accountAddress mailboxName : Bytes) :
    Except DbStatus Nat × Session :=
  let normalizedAddress := canonicalAddress accountAddress
  let normalizedMailbox := normalizeMailboxName mailboxName
  match loadAccount session.db normalizedAddress with
  | .error failure => (.error failure, session)
  | .ok account =>
    match ensureMailbox session normalizedAddress normalizedMailbox with
    | (.error failure, session) => (.error failure, session)
    | (.ok mailbox, session) =>
      let messages := listMessagesUnlocked session.db normalizedAddress normalizedMailbox
      let removed := messages.filter fun entry => hasDeletedFlag entry.flags
      let removedCount := removed.length
      let removedBytes := (removed.map (·.sizeBytes)).sum
      let removedUnseen := (removed.filter fun entry => !hasSeenFlag entry.flags).length
      if removedCount = 0 then (.ok 0, session)
      else
        let mailbox :=
          { mailbox with
            totalCount :=
              if removedCount < mailbox.totalCount then mailbox.totalCount - removedCount else 0
            unseenCount :=
              if removedUnseen < mailbox.unseenCount then mailbox.unseenCount - removedUnseen
              else 0 }
        let account :=
          { account with
            usedBytes :=
              if removedBytes < account.usedBytes then account.usedBytes - removedBytes else 0 }
        match session.write (removed.map (fun entry =>
            .eraseMessage (toKey (messageKey normalizedAddress normalizedMailbox entry.uid))) ++
          [.putMailbox (toKey (mailboxKey normalizedAddress normalizedMailbox)) mailbox,
            .putAccount (toKey (accountKey account.address)) account]) with
        | (.error failure, session) => (.error failure, session)
        | (.ok (), session) => (.ok removedCount, session)

end SwStack.Mail
