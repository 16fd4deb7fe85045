import SwStack.Types.Json
import SwStack.Types.SwString
import SwStack.Lib.Delimited

/-! Addresses and names as the mail code spells them. -/
namespace SwStack.Mail

open SwStack.Lib SwStack.Types

/-- Where a text first stands in another, cast as the source casts it. -/
def indexOfText (text pattern : Bytes) : Int :=
  match cutAt pattern text with
  | some cut => toInt cut.1.length
  | none => npos

def lastIndexOf (text : Bytes) (character : UInt8) : Option Nat :=
  (text.reverse.findIdx? (· == character)).map fun behind => text.length - 1 - behind

def toUpper (text : Bytes) : Bytes :=
  text.map fun byte => if 0x61 ≤ byte ∧ byte ≤ 0x7a then byte - 0x20 else byte

def trimAngleBrackets (value : Bytes) : Bytes :=
  let out := SwString.trimmed value
  if out.head? = some 0x3c ∧ out.getLast? = some 0x3e ∧ 2 ≤ out.length then
    SwString.trimmed (SwString.mid out 1 (toInt (out.length - 2)))
  else out

def stripSmtpPathDecorators (value : Bytes) : Bytes :=
  let out := trimAngleBrackets value
  SwString.trimmed
    (if SwString.startsWith out (ascii "mailto:") then SwString.mid out 7 (-1) else out)

def normalizeMailboxName (name : Bytes) : Bytes :=
  let out := SwString.trimmed name
  if out = [] then ascii "INBOX"
  else if toUpper out = ascii "INBOX" then ascii "INBOX"
  else out

theorem normalizeMailboxName_idem (name : Bytes) :
    normalizeMailboxName (normalizeMailboxName name) = normalizeMailboxName name := by
  unfold normalizeMailboxName
  dsimp only
  split
  · decide
  rename_i filled
  split
  · decide
  rename_i other
  rw [SwString.trimmed_trimmed, if_neg filled, if_neg other]

/-- The text between the last angle brackets, where there are any. -/
def canonicalAddress (address : Bytes) : Bytes :=
  let value := SwString.toLower (SwString.trimmed (stripSmtpPathDecorators address))
  match lastIndexOf value 0x3c, lastIndexOf value 0x3e with
  | some displayStart, some displayEnd =>
    if displayStart < displayEnd then
      SwString.toLower (SwString.trimmed
        (SwString.mid value (toInt (displayStart + 1)) (toInt (displayEnd - displayStart - 1))))
    else value
  | _, _ => value

/-- The local part and the domain. -/
def splitAddress (address : Bytes) : Option (Bytes × Bytes) :=
  let canonical := canonicalAddress address
  let atPos := indexOfText canonical [0x40]
  if atPos ≤ 0 ∨ (canonical.length : Int) - 1 ≤ atPos then none
  else
    let localPart := canonical.take atPos.toNat
    let domain := SwString.mid canonical (atPos + 1) (-1)
    if localPart = [] ∨ domain = [] then none else some (localPart, domain)

def paddedNumber (value : Nat) : Bytes :=
  List.replicate (20 - (decimal value).length) 0x30 ++ decimal value

end SwStack.Mail
