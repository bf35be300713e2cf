import BinlogServer.Lib.Decimal
import BinlogServer.Util.Action

/-!
# The context of a client connection

`minimysql::connection_context` in the command phase: commands are decoded, and frames are encoded with the sequence
numbers of the connection. The codec of the messages is the one of MySQL Router; it is a parameter.
-/

namespace BinlogServer.Minimysql
open ByteString Util

/-- `client_command_type` -/
inductive ClientCommandType where
  | query
  | quit
  | resetConnection
  | changeUser
  | ping
  | binlogDump
  | binlogDumpGtid
  | unknown
deriving DecidableEq, Repr

/-- The command a `cmd_byte` of the codec stands for. -/
def ClientCommandType.ofByte (commandByte : UInt8) : ClientCommandType :=
  if commandByte = 0x03 then .query
  else if commandByte = 0x01 then .quit
  else if commandByte = 0x1F then .resetConnection
  else if commandByte = 0x11 then .changeUser
  else if commandByte = 0x0E then .ping
  else if commandByte = 0x12 then .binlogDump
  else if commandByte = 0x1E then .binlogDumpGtid
  else .unknown

/-- What is read from the frame of a command: the statement of a query, and where a dump starts. -/
structure ClientMessage where
  statement : Bytes := []
  flags : Nat := 0
  serverId : Nat := 0
  filename : Bytes := []
  position : Nat := 0
deriving DecidableEq, Repr

/-- `datatype_properties_type` for the four types of the columns, which are numbers or texts and may be null. -/
structure Datatype where
  numeric : Bool
  nullable : Bool
deriving DecidableEq, Repr

/-- A column: its name, its original name and its type. -/
structure Column where
  name : String
  originalName : String
  datatype : Datatype
deriving DecidableEq, Repr

/-- A value in a row of a result set. -/
inductive Cell where
  | number (value : Option Nat)
  | text (value : Option String)
deriving DecidableEq, Repr

/-- `textualize_value` -/
def Cell.textualizeValue : Cell → Option Bytes
  | .number value => value.map toDecimal
  | .text value => value.map ascii

/-- The messages of the server. -/
inductive ServerMessage where
  | ok
  | eof (autocommit : Bool)
  | error (errorCode : Nat) (message sqlState : String)
  | columnCount (count : Nat)
  | columnMeta (schema table : String) (column : Column)
  | row (values : List (Option Bytes))
  /-- An event is not encoded: it follows a header and a zero. -/
  | binlogEvent (data : Bytes)
deriving DecidableEq, Repr

abbrev CapabilityBitset := BitVec 32

/-- `pos::text_result_with_session_tracking` -/
def textResultWithSessionTracking : Nat := 24

/-- The codec. Its decoders get the frame of a command after the header, its encoders answer the payload. -/
class Codec where
  decode : ClientCommandType → CapabilityBitset → Bytes → Fallible ClientMessage
  encode : ServerMessage → CapabilityBitset → Fallible Bytes

/-- A frame with the sequence number in its header. -/
structure Frame where
  seqId : UInt8
  payload : Bytes
deriving DecidableEq, Repr

/-- The members of `connection_context` that the command phase reads or changes. -/
structure ConnectionContext where
  sequenceNumber : UInt8 := 0
  sharedCapabilities : CapabilityBitset := 0
  clientCommand : ClientCommandType := .unknown
  clientMessage : ClientMessage := {}
deriving DecidableEq, Repr

def frameHeaderLength : Nat := 4

namespace ConnectionContext

/-- `generate_sequence_number` -/
def generateSequenceNumber : Action ConnectionContext UInt8 := do
  let context ← get
  modify fun context => { context with sequenceNumber := context.sequenceNumber + 1 }
  pure context.sequenceNumber

/-- `validate_and_update_sequence_number` -/
def validateAndUpdateSequenceNumber (sequenceNumber : UInt8) : Action ConnectionContext Unit := do
  let context ← get
  raiseIf (sequenceNumber ≠ context.sequenceNumber) .runtimeError "Protocol error"
  modify fun context => { context with sequenceNumber := context.sequenceNumber + 1 }

/-- `enter_command_loop_iteration` -/
def enterCommandLoopIteration : Action ConnectionContext Unit :=
  modify fun context => { context with
    sequenceNumber := 0
    clientCommand := .unknown
    clientMessage := { context.clientMessage with statement := [] } }

section
variable [Codec]

/-- What a command leaves in the context: a statement, or where a dump starts. -/
def received (context : ConnectionContext) (command : ClientCommandType) (message : ClientMessage) :
    ConnectionContext :=
  { context with
    clientCommand := command
    clientMessage :=
      if command = .query then { context.clientMessage with statement := message.statement }
      else if command = .binlogDump then { message with statement := context.clientMessage.statement }
      else context.clientMessage }

/-- `parse_client_command`. The sequence number is in the last byte of the header, and it is not looked at where the
    command is not known. -/
def parseClientCommand (payload : Bytes) : Action ConnectionContext Unit := do
  raiseIf (payload.length ≤ frameHeaderLength) .runtimeError "Protocol error"
  let command := ClientCommandType.ofByte (payload.getD frameHeaderLength 0)
  if command = .unknown then modify fun context => { context with clientCommand := .unknown }
  else
    let context ← get
    let message ← (Codec.decode command context.sharedCapabilities (payload.drop frameHeaderLength) : Fallible _)
    validateAndUpdateSequenceNumber (payload.getD (frameHeaderLength - 1) 0)
    modify (·.received command message)

/-- A message in a frame with the next sequence number. -/
def encodeFrame (message : ServerMessage) : Action ConnectionContext Frame := do
  let seqId ← generateSequenceNumber
  let context ← get
  let payload ← (Codec.encode message context.sharedCapabilities : Fallible Bytes)
  pure ⟨seqId,payload⟩

def generateEncodedOk : Action ConnectionContext Frame := encodeFrame .ok
def generateEncodedEof : Action ConnectionContext Frame := encodeFrame (.eof false)
def generateEncodedError (errorCode : Nat) (message sqlState : String) : Action ConnectionContext Frame :=
  encodeFrame (.error errorCode message sqlState)
def generateEncodedUnknownCommand : Action ConnectionContext Frame :=
  generateEncodedError 1047 "Unknown command" "HY000"
def generateEncodedSyntaxError : Action ConnectionContext Frame := generateEncodedError 1064 "Syntax error" "42000"
def generateEncodedBinlogEvent (eventData : Bytes) : Action ConnectionContext Frame :=
  encodeFrame (.binlogEvent eventData)

/-- Messages, one frame after the other. -/
def encodeFrames : List ServerMessage → Action ConnectionContext (List Frame)
  | [] => pure []
  | message :: rest => do
    let frame ← encodeFrame message
    let frames ← encodeFrames rest
    pure (frame :: frames)

/-- `encode_resultset`: the number of columns, the columns, the rows and the end; clients that do not track the session
    get an end after the columns as well. -/
def encodeResultset (rows : List (List Cell)) (columns : List Column) : Action ConnectionContext (List Frame) := do
  let context ← get
  let tracking := context.sharedCapabilities.getLsbD textResultWithSessionTracking
  encodeFrames ([.columnCount columns.length] ++ columns.map (.columnMeta "db" "tbl") ++
    (if tracking then [] else [.eof false]) ++ rows.map (fun row => .row (row.map Cell.textualizeValue)) ++ [.eof true])

end
end ConnectionContext
end BinlogServer.Minimysql
