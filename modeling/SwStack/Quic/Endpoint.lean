import SwStack.Quic.Receive
import SwStack.Lib.Transition

/-! One endpoint as a machine. An input is a call of the driver or the application, the
admission of one packet, or one frame of it, so a run sees every state between the frames
of a datagram. -/
namespace SwStack.Quic

open SwStack.Lib

inductive Input where
  | sendStreamData (streamId : Nat) (data : Bytes) (fin : Bool)
  | resetStream (streamId errorCode : Nat)
  | resetStreamAt (streamId errorCode reliableSize : Nat)
  | stopReceivingStream (streamId errorCode : Nat)
  | readStream (streamId : Nat)
  | releasePeerBidirectionalStream (streamId : Nat)
  | queueDatagramFrame (data : Bytes)
  | queueFrame (level : Level) (frame : Frame)
  | takeDatagram
  | registerLocalStream (streamId : Nat)
  | injectEarlyStream (streamId offset : Nat) (data : Bytes) (fin : Bool)
  | close (errorCode : Nat) (reason : Bytes) (isApplication : Bool)
  | buildDatagrams (clock : Clock) (seals : Nat → Nat → Bool)
  | buildPathControlDatagram (response : Bool) (controlData : Bytes) (nowMs maxWireBytes : Nat)
      (seals : Nat → Nat → Bool)
  | onTimeout (clock : Clock)
  | setLevelKeys (level : Level) (rxKeys txKeys : TrafficKeys)
  | dropLevelKeys (level : Level)
  | setHandshakeConfirmed (confirmed : Bool)
  | initiateKeyUpdate
  | commitPathMigration
  | beginPathValidation (challenge : Bytes)
  | cancelPathValidation
  | onPeerAddressChanged (receivedBytes : Nat) (challenge : Bytes)
  | issueNewConnectionId (connectionId token : Bytes)
  | setMaximumUdpPayloadSize (maximum : Nat)
  | admitPacket (mode : ReceiveMode) (nowMs : Nat) (packet : Packet)
  | processFrame (level : Level) (mode : ReceiveMode) (clock : Clock) (frame : Frame)
  | creditDatagram (bytes nowMs : Nat)
  | statelessReset (clock : Clock)

namespace Connection

def Admission.connection : Admission → Connection
  | .discarded c | .refused c _ | .accepted c => c

def perform (c : Connection) : Input → Connection
  | .sendStreamData streamId data fin => (c.sendStreamData streamId data fin).1
  | .resetStream streamId errorCode => (c.resetStream streamId errorCode).1
  | .resetStreamAt streamId errorCode reliableSize =>
    (c.resetStreamAt streamId errorCode reliableSize).1
  | .stopReceivingStream streamId errorCode => (c.stopReceivingStream streamId errorCode).1
  | .readStream streamId => (c.readStream streamId).1
  | .releasePeerBidirectionalStream streamId => (c.releasePeerBidirectionalStream streamId).1
  | .queueDatagramFrame data => (c.queueDatagramFrame data).1
  | .queueFrame level frame => c.queueFrame level frame
  | .takeDatagram => c.takeDatagram.1
  | .registerLocalStream streamId =>
    { c with sending.localOpenedStreams := c.sending.localOpenedStreams.insert streamId true }
  | .injectEarlyStream streamId offset data fin => (c.processStreamFrame streamId offset data fin).1
  | .close errorCode reason isApplication => c.close errorCode reason isApplication
  | .buildDatagrams clock seals => (c.buildDatagrams clock seals).1
  | .buildPathControlDatagram response controlData nowMs maxWireBytes seals =>
    (c.buildPathControlDatagram response controlData nowMs maxWireBytes seals).1
  | .onTimeout clock => c.onTimeout clock
  | .setLevelKeys level rxKeys txKeys => c.setLevelKeys level rxKeys txKeys
  | .dropLevelKeys level => c.dropLevelKeys level
  | .setHandshakeConfirmed confirmed => c.setHandshakeConfirmed confirmed
  | .initiateKeyUpdate => c.initiateKeyUpdate.1
  | .commitPathMigration => c.commitPathMigration
  | .beginPathValidation challenge => c.beginPathValidation challenge
  | .cancelPathValidation => c.cancelPathValidation
  | .onPeerAddressChanged receivedBytes challenge => c.onPeerAddressChanged receivedBytes challenge
  | .issueNewConnectionId connectionId token => c.issueNewConnectionId connectionId token
  | .setMaximumUdpPayloadSize maximum => c.setMaximumUdpPayloadSize maximum
  | .admitPacket mode nowMs packet => (c.admitPacket mode nowMs packet).connection
  | .processFrame level mode clock frame => (c.processFrame level mode clock frame).1
  | .creditDatagram bytes nowMs => c.creditDatagram bytes nowMs
  | .statelessReset clock => c.statelessReset clock

def step (c : Connection) (input : Input) : Option Connection := some (c.perform input)

/-- The states of a connection the driver set up, under a condition on its inputs. -/
abbrev Run (allowed : Connection → Input → Prop) (setup : Setup) : Connection → Prop :=
  Reaches step allowed (start setup)

end Connection
end SwStack.Quic
