import SendingSystem.Lib.CString

/-!
# Server configuration

The constants of `util/config.h` and `database/model/database_enums.h` that the
handlers and the database layer read. The reference-table ids are enumerations;
`id` gives the row id each one stands for, which is what the seed rows of the
schema have to match.

## Main definitions

* `maxFilename`, `saveDir`, `saveDirLength`: The limits on stored file names.
* `maxMessageSize`: The largest body of a text message.
* `connectionPort`, `sslEncrypt`, `incomingPeerRole`: The server's end of a link.
* `MessageTypeId`, `MessageStatusId`, `MessageDirectionId`, `ConnectionRoleId`: The
  reference-table ids.
-/

namespace SendingSystem

namespace Server

open CString

/-- `SAVE_DIR`. -/
def saveDir : List UInt8 := ascii "build/saves"

/-- `MAX_FILENAME`, in bytes. -/
def maxFilename : Nat := 255

/-- `SAVE_DIR_LENGTH`. -/
def saveDirLength : Nat := 11

/-- `MAX_MESSAGE_SIZE`, in bytes. -/
def maxMessageSize : Int := 0x6400000

/-- `CONNECTION_PORT`. -/
def connectionPort : Int := 5000

/-- `SSL_ENCRYPT`, as the `int` the repositories take. -/
def sslEncrypt : Int := 1

/-- Values of `MessageType.id`. -/
inductive MessageTypeId where
  | rawData
  | file
  deriving DecidableEq

def MessageTypeId.id : MessageTypeId → Int
  | .rawData => 1
  | .file => 2

/-- Values of `MessageStatus.id`. -/
inductive MessageStatusId where
  | success
  | failed
  deriving DecidableEq

def MessageStatusId.id : MessageStatusId → Int
  | .success => 1
  | .failed => 2

/-- Values of `MessageDirection.id`. -/
inductive MessageDirectionId where
  | outbound
  | inbound
  deriving DecidableEq

def MessageDirectionId.id : MessageDirectionId → Int
  | .outbound => 1
  | .inbound => 2

/-- Values of `ConnectionRole.id`. -/
inductive ConnectionRoleId where
  | server
  | client
  | master
  | slave
  deriving DecidableEq

def ConnectionRoleId.id : ConnectionRoleId → Int
  | .server => 1
  | .client => 2
  | .master => 3
  | .slave => 4

/-- `INCOMING_PEER_ROLE`. -/
def incomingPeerRole : ConnectionRoleId := .client

theorem saveDir_length : saveDir.length = saveDirLength := by decide

end Server

end SendingSystem
