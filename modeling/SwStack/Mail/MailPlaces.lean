import SwStack.Mail.MailStore

/-! Mailboxes as the keys name them. The keys of two mailboxes are apart unless a separator stands
in one of their names. -/
namespace SwStack.Mail

open SwStack.Lib SwStack.Types SwStack.EmbeddedDb List

theorem isDigit_paddedNumber {value : Nat} {byte : UInt8} (member : byte ∈ paddedNumber value) :
    isDigit byte = true := by
  rcases mem_append.mp member with zero | digit
  · rw [eq_of_mem_replicate zero]
    decide
  · exact isDigit_of_mem_decimal digit

theorem length_paddedNumber (value : Nat) : 20 ≤ (paddedNumber value).length := by
  rw [paddedNumber, length_append, length_replicate]
  omega

theorem ofDecimal_paddedNumber (value : Nat) : ofDecimal (paddedNumber value) = value := by
  have zeros (count : Nat) : ofDecimal (List.replicate count 0x30) = 0 := by
    induction count with
    | zero => rfl
    | succ count ih =>
      rw [ofDecimal, replicate_succ, foldl_cons]
      exact ih
  have fold := zeros (20 - (decimal value).length)
  rw [ofDecimal] at fold
  rw [paddedNumber, ofDecimal, foldl_append, fold]
  exact ofDecimal_decimal value

theorem paddedNumber_injective : Function.Injective paddedNumber :=
  Function.LeftInverse.injective ofDecimal_paddedNumber

theorem zeros_le {digits : Bytes} (decimal : ∀ byte ∈ digits, isDigit byte = true) {count : Nat}
    (enough : count ≤ digits.length) : List.replicate count 0x30 ≤ digits := by
  induction count generalizing digits with
  | zero => exact not_lt.mp (not_lt_nil digits)
  | succ count ih =>
    cases digits with
    | nil => exact absurd enough (by simp)
    | cons byte digits =>
      obtain ⟨here, rest⟩ := forall_mem_cons.mp decimal
      have above : (0x30 : UInt8) ≤ byte := UInt8.le_iff_toNat_le.mpr (isDigit_iff.mp here).1
      have further := ih rest (Nat.le_of_succ_le_succ enough)
      rw [← not_lt, replicate_succ, cons_lt_cons_iff, not_or, not_and]
      exact ⟨not_lt.mpr above, fun _ => not_lt.mpr further⟩

theorem paddedNumber_zero_le (value : Nat) : paddedNumber 0 ≤ paddedNumber value :=
  zeros_le (fun _ => isDigit_paddedNumber) (length_paddedNumber value)

theorem paddedNumber_lt_top (value : Nat) : paddedNumber value < [0xff] := by
  have long := length_paddedNumber value
  cases shown : paddedNumber value with
  | nil =>
    rw [shown] at long
    exact absurd long (by decide)
  | cons byte rest =>
    have digit := @isDigit_paddedNumber value byte (shown ▸ mem_cons_self ..)
    refine cons_lt_cons_iff.mpr (.inl (UInt8.lt_iff_toNat_lt.mpr ?_))
    exact Nat.lt_of_le_of_lt (isDigit_iff.mp digit).2 (by decide)

/-- A mailbox of an account, under the names that the calls come to. -/
structure Place where
  address : Bytes
  mailbox : Bytes
  deriving DecidableEq

/-- The mailbox that a call means. -/
def place (accountAddress mailboxName : Bytes) : Place :=
  { address := canonicalAddress accountAddress
    mailbox := normalizeMailboxName mailboxName }

def SwMailMailbox.place (mailbox : SwMailMailbox) : Place := ⟨mailbox.accountAddress, mailbox.name⟩

def SwMailMessageEntry.place (entry : SwMailMessageEntry) : Place :=
  ⟨entry.accountAddress, entry.mailboxName⟩

namespace Place

def key (place : Place) : Bytes := toKey (mailboxKey place.address place.mailbox)

def accountKey (place : Place) : Bytes := toKey (Mail.accountKey place.address)

def messageKey (place : Place) (uid : Nat) : Bytes :=
  toKey (Mail.messageKey place.address place.mailbox uid)

def secondaryKey (place : Place) (uid : Nat) : Bytes :=
  toKey (messagesSecondaryKey place.address place.mailbox uid)

/-- A listing of the mailbox sees the key. -/
def Lists (place : Place) (key : Bytes) : Prop :=
  place.secondaryKey 0 ≤ key ∧
    Content.before (toKey (place.address ++ 0x1f :: place.mailbox ++ [0x1f, 0xff])) key = true

/-- The names are spelled as the keys spell them. -/
structure Clean (place : Place) : Prop where
  address : canonicalAddress place.address = place.address
  mailbox : normalizeMailboxName place.mailbox = place.mailbox
  addressText : 0 ∉ place.address
  mailboxText : 0 ∉ place.mailbox

/-- No record of one mailbox is taken for one of the other. -/
structure Apart (place other : Place) : Prop where
  mailbox : place.key ≠ other.key
  message : ∀ uid otherUid, place.messageKey uid ≠ other.messageKey otherUid
  listing : ∀ uid, ¬place.Lists (other.secondaryKey uid)

namespace Clean

variable {place : Place}

theorem plain_paddedNumber (uid : Nat) : 0 ∉ paddedNumber uid := by
  intro member
  cases isDigit_paddedNumber member

theorem key_eq (clean : place.Clean) :
    place.key = ascii "mbx/" ++ (place.address ++ 0x2f :: place.mailbox) := by
  rw [key, mailboxKey, clean.address, clean.mailbox, toKey, SwString.toUtf8_of_plain,
    append_assoc]
  simp only [mem_append, mem_cons, not_or]
  exact ⟨⟨by decide, clean.addressText⟩, by decide, clean.mailboxText⟩

theorem accountKey_eq (clean : place.Clean) : place.accountKey = ascii "acct/" ++ place.address := by
  rw [accountKey, Mail.accountKey, clean.address, toKey, SwString.toUtf8_of_plain]
  rw [mem_append, not_or]
  exact ⟨by decide, clean.addressText⟩

theorem messageKey_eq (clean : place.Clean) (uid : Nat) : place.messageKey uid =
    ascii "msg/" ++ (place.address ++ 0x2f :: (place.mailbox ++ 0x2f :: paddedNumber uid)) := by
  rw [messageKey, Mail.messageKey, clean.address, clean.mailbox, toKey, SwString.toUtf8_of_plain,
    append_assoc, append_assoc, cons_append]
  simp only [mem_append, mem_cons, not_or]
  exact ⟨⟨⟨by decide, clean.addressText⟩, by decide, clean.mailboxText⟩, by decide,
    plain_paddedNumber uid⟩

theorem secondaryKey_eq (clean : place.Clean) (uid : Nat) : place.secondaryKey uid =
    place.address ++ 0x1f :: (place.mailbox ++ 0x1f :: paddedNumber uid) := by
  rw [secondaryKey, messagesSecondaryKey, clean.address, clean.mailbox, toKey,
    SwString.toUtf8_of_plain, append_assoc, cons_append]
  simp only [mem_append, mem_cons, not_or]
  exact ⟨⟨clean.addressText, by decide, clean.mailboxText⟩, by decide, plain_paddedNumber uid⟩

theorem stop_eq (clean : place.Clean) :
    toKey (place.address ++ 0x1f :: place.mailbox ++ [0x1f, 0xff]) =
      (place.address ++ 0x1f :: (place.mailbox ++ [0x1f])) ++ [0xff] := by
  rw [toKey, SwString.toUtf8_of_plain, append_assoc, append_assoc, cons_append,
    cons_append, append_assoc]
  · rfl
  · simp only [mem_append, mem_cons, not_or]
    exact ⟨⟨clean.addressText, by decide, clean.mailboxText⟩, by decide, by decide,
      not_mem_nil⟩

theorem messageKey_inj (clean : place.Clean)
    (same : place.messageKey uid = place.messageKey other) : uid = other := by
  rw [clean.messageKey_eq, clean.messageKey_eq] at same
  have numbers := append_cancel_left (append_cancel_left same)
  injection numbers with _ numbers
  injection append_cancel_left numbers with _ padded
  exact paddedNumber_injective padded

theorem accountKey_inj {other : Place} (clean : place.Clean) (otherClean : other.Clean)
    (same : place.accountKey = other.accountKey) : place.address = other.address := by
  rw [clean.accountKey_eq, otherClean.accountKey_eq] at same
  exact append_cancel_left same

theorem lists_self (clean : place.Clean) (uid : Nat) : place.Lists (place.secondaryKey uid) := by
  rw [Lists, clean.secondaryKey_eq, clean.secondaryKey_eq, clean.stop_eq, Content.before,
    Bool.or_eq_true, decide_eq_true_iff]
  have split (rest : Bytes) : place.address ++ 0x1f :: (place.mailbox ++ 0x1f :: rest) =
      (place.address ++ 0x1f :: (place.mailbox ++ [0x1f])) ++ rest := by
    simp only [append_assoc, cons_append, nil_append]
  rw [split (paddedNumber 0), split (paddedNumber uid)]
  refine ⟨?_, .inr (append_left_lt (paddedNumber_lt_top uid))⟩
  exact not_lt.mp (append_left_le (not_lt.mpr (paddedNumber_zero_le uid)))

theorem Lists.front (clean : place.Clean) {key : Bytes} (lists : place.Lists key) :
    ∃ rest, key = place.address ++ 0x1f :: (place.mailbox ++ 0x1f :: rest) := by
  rw [Lists, clean.secondaryKey_eq, clean.stop_eq, Content.before, Bool.or_eq_true,
    decide_eq_true_iff] at lists
  obtain ⟨above, below⟩ := lists
  have split : place.address ++ 0x1f :: (place.mailbox ++ 0x1f :: paddedNumber 0) =
      (place.address ++ 0x1f :: (place.mailbox ++ [0x1f])) ++ paddedNumber 0 := by
    simp only [append_assoc, cons_append, nil_append]
  rw [split] at above
  have started : place.address ++ 0x1f :: (place.mailbox ++ [0x1f]) ≤ key :=
    le_trans (not_lt.mp le_append_left) above
  have ends := below.resolve_left (by simp)
  obtain ⟨rest, rfl⟩ := prefix_of_between started ends
  exact ⟨rest, by simp only [append_assoc, cons_append, nil_append]⟩

end Clean

/-- No separator stands in a name. -/
structure Plain (place : Place) : Prop extends Clean place where
  address_slash : 0x2f ∉ place.address
  address_unit : 0x1f ∉ place.address
  mailbox_unit : 0x1f ∉ place.mailbox

theorem Plain.apart {place other : Place} (plain : place.Plain) (otherPlain : other.Plain)
    (different : place ≠ other) : place.Apart other := by
  have names (same : place.address = other.address ∧ place.mailbox = other.mailbox) : False := by
    obtain ⟨address, mailbox⟩ := place
    obtain ⟨otherAddress, otherMailbox⟩ := other
    obtain ⟨rfl, rfl⟩ := same
    exact different rfl
  constructor
  · intro same
    rw [plain.key_eq, otherPlain.key_eq] at same
    exact names (append_mark_inj plain.address_slash otherPlain.address_slash
      (append_cancel_left same))
  · intro uid otherUid same
    rw [plain.messageKey_eq, otherPlain.messageKey_eq] at same
    obtain ⟨address, rest⟩ := append_mark_inj plain.address_slash otherPlain.address_slash
      (append_cancel_left same)
    -- the number has no slash: the last one of the key stands before it
    have noSlash (uid : Nat) : 0x2f ∉ (paddedNumber uid).reverse := by
      intro member
      cases isDigit_paddedNumber (mem_reverse.mp member)
    have backwards := congrArg List.reverse rest
    rw [reverse_append, reverse_append, reverse_cons, reverse_cons,
      append_assoc, append_assoc, singleton_append, singleton_append]
      at backwards
    have mailboxes := (append_mark_inj (noSlash uid) (noSlash otherUid) backwards).2
    exact names ⟨address, reverse_injective mailboxes⟩
  · intro uid lists
    obtain ⟨rest, front⟩ := Clean.Lists.front plain.toClean lists
    rw [otherPlain.secondaryKey_eq] at front
    obtain ⟨address, more⟩ :=
      append_mark_inj otherPlain.address_unit plain.address_unit front
    obtain ⟨mailbox, _⟩ := append_mark_inj otherPlain.mailbox_unit plain.mailbox_unit more
    exact names ⟨address.symm, mailbox.symm⟩

end Place

end SwStack.Mail
