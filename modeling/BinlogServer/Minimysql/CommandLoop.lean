import BinlogServer.Minimysql.ConnectionContext
import Mathlib.Data.List.Range

/-!
# The command loop of a session

A client sends a command in a frame, and the frames of the answer are numbered from the number after the one of the
command.
-/

namespace BinlogServer.Minimysql
open ByteString Util ConnectionContext

/-- What is done for a query that is known. -/
inductive QueryHandler where
  | ok
  | resultset (rows : List (List Cell)) (columns : List Column)
deriving DecidableEq, Repr

/-- A query handler at work. -/
def QueryHandler.run [Codec] : QueryHandler → Action ConnectionContext (List Frame)
  | .ok => do
    let frame ← generateEncodedOk
    pure [frame]
  | .resultset rows columns => encodeResultset rows columns

/-- The queries that are known, and the events of a dump. -/
structure Service where
  knownQueries : List (Bytes × QueryHandler)
  sampleEvents : List Bytes

/-- A command that is being answered: the context and what has been sent. -/
structure Session where
  context : ConnectionContext
  frames : List Frame := []
deriving DecidableEq, Repr

namespace Session

/-- A computation on the context. -/
def onContext {α : Type} (x : Action ConnectionContext α) : Action Session α := fun s =>
  match x s.context with
  | .ok a context => .ok a { s with context := context }
  | .error failure context => .error failure { s with context := context }

/-- `async_write_mysql_frames` -/
def send (frames : List Frame) : Action Session Unit := modify fun s => { s with frames := s.frames ++ frames }

section
variable [Codec]

/-- The frames of a result set are encoded and sent. -/
def replyAll (x : Action ConnectionContext (List Frame)) : Action Session Unit := do
  let frames ← onContext x
  send frames

/-- A frame is encoded and sent. -/
def reply (x : Action ConnectionContext Frame) : Action Session Unit := do
  let frame ← onContext x
  send [frame]

/-- The events of a dump, one frame after the other. -/
def dump : List Bytes → Action Session Unit
  | [] => pure ()
  | eventData :: rest => do
    reply (generateEncodedBinlogEvent eventData)
    dump rest

/-- The answer to a command; whether the session is over then. -/
def answer (service : Service) : Action Session Bool := do
  let s ← get
  match s.context.clientCommand with
  | .query =>
    match service.knownQueries.lookup s.context.clientMessage.statement with
    | some handler => replyAll handler.run
    | none => reply generateEncodedSyntaxError
    pure false
  | .ping =>
    reply generateEncodedOk
    pure false
  | .binlogDump =>
    dump service.sampleEvents
    reply generateEncodedEof
    pure true
  | .quit => pure true
  | _ =>
    reply generateEncodedUnknownCommand
    pure false

/-- One round of the command loop. -/
def commandLoopIteration (service : Service) (data : Bytes) : Action Session Bool := do
  onContext enterCommandLoopIteration
  onContext (parseClientCommand data)
  answer service

end
end Session

/-- A command and the frames that have been sent in response. -/
structure Exchange where
  command : Bytes
  frames : List Frame
deriving DecidableEq, Repr

/-- The command loop over the commands of a client. An exception ends the session. -/
def commandLoop [Codec] (service : Service) (context : ConnectionContext) : List Bytes → List Exchange
  | [] => []
  | data :: rest =>
    match Session.commandLoopIteration service data ⟨context,[]⟩ with
    | .ok false s => ⟨data,s.frames⟩ :: commandLoop service s.context rest
    | .ok true s => [⟨data,s.frames⟩]
    | .error _ s => [⟨data,s.frames⟩]

/-- Sequence numbers one after the other; after 255 there is 0. -/
def consecutive (first : UInt8) : Nat → List UInt8
  | 0 => []
  | n + 1 => first :: consecutive (first + 1) n

theorem consecutive_add (first : UInt8) (n m : Nat) :
    consecutive first (n + m) = consecutive first n ++ consecutive (first + UInt8.ofNat n) m := by
  induction n generalizing first with
  | zero => simp [consecutive]
  | succ n ih =>
    have next : first + 1 + UInt8.ofNat n = first + UInt8.ofNat (n + 1) := by
      rw [UInt8.add_assoc, UInt8.ofNat_add, UInt8.add_comm 1]
      rfl
    rw [Nat.succ_add, consecutive, ih, next]
    rfl

/-- Frames are numbered one after the other. -/
def InOrder (first : UInt8) (frames : List Frame) : Prop := frames.map Frame.seqId = consecutive first frames.length

/-- What has been sent is in order, and the context has the number that comes next and the capabilities that were agreed
    on. -/
structure Numbered (first : UInt8) (capabilities : CapabilityBitset) (s : Session) : Prop where
  ids : InOrder first s.frames
  next : s.context.sequenceNumber = first + UInt8.ofNat s.frames.length
  shared : s.context.sharedCapabilities = capabilities

/-- A computation that sends frames in order, even if it does not come to its end. -/
structure Replies {α : Type} (x : Action Session α) : Prop where
  returned : ∀ {first capabilities s a t}, Numbered first capabilities s → x s = .ok a t → Numbered first capabilities t
  raised : ∀ {first capabilities s failure t}, Numbered first capabilities s → x s = .error failure t →
    InOrder first t.frames

/-- A computation of frames that uses up as many numbers. -/
def Encodes (x : Action ConnectionContext (List Frame)) : Prop :=
  ∀ context frames next, x context = .ok frames next → InOrder context.sequenceNumber frames ∧
    next.sequenceNumber = context.sequenceNumber + UInt8.ofNat frames.length ∧
    next.sharedCapabilities = context.sharedCapabilities

theorem Replies.pure {α : Type} (a : α) : Replies (Pure.pure a : Action Session α) where
  returned numbered run := by
    cases run
    exact numbered
  raised _ run := by cases run

theorem Replies.bind {α β : Type} {x : Action Session α} {f : α → Action Session β} (first : Replies x)
    (rest : ∀ a, Replies (f a)) : Replies (x >>= f) where
  returned numbered run := by
    obtain ⟨a,m,before,after⟩ := Action.bind_eq_ok.mp run
    exact (rest a).returned (first.returned numbered before) after
  raised numbered run := by
    rcases Action.bind_eq_error.mp run with early | ⟨a,m,before,after⟩
    · exact first.raised numbered early
    · exact (rest a).raised (first.returned numbered before) after

theorem Replies.get : Replies (MonadState.get : Action Session Session) where
  returned numbered run := by
    cases run
    exact numbered
  raised _ run := by cases run

/-- Frames that have been encoded are sent. -/
theorem Encodes.replies {x : Action ConnectionContext (List Frame)} (encodes : Encodes x) :
    Replies (Session.replyAll x) where
  returned {first capabilities s a t} numbered run := by
    obtain ⟨frames,m,encoded,sent⟩ := Action.bind_eq_ok.mp run
    unfold Session.onContext at encoded
    cases ran : x s.context with
    | error failure context => simp [ran] at encoded
    | ok sending context =>
      simp only [ran] at encoded
      cases encoded
      cases sent
      obtain ⟨order,next,shared⟩ := encodes _ _ _ ran
      refine ⟨?_,?_,shared.trans numbered.shared⟩
      · rw [InOrder, List.map_append, List.length_append, consecutive_add, numbered.ids, order, numbered.next]
      · show context.sequenceNumber = _
        rw [next, numbered.next, List.length_append, UInt8.ofNat_add, UInt8.add_assoc]
  raised {first capabilities s failure t} numbered run := by
    rcases Action.bind_eq_error.mp run with early | ⟨frames,m,-,late⟩
    · unfold Session.onContext at early
      cases ran : x s.context with
      | error failure context =>
        simp only [ran] at early
        cases early
        exact numbered.ids
      | ok sending context => simp [ran] at early
    · cases late

section
variable [Codec]

theorem encodeFrame_ok {message : ServerMessage} {context next : ConnectionContext} {frame : Frame}
    (run : encodeFrame message context = .ok frame next) :
    frame.seqId = context.sequenceNumber ∧ next.sequenceNumber = context.sequenceNumber + 1 ∧
      next.sharedCapabilities = context.sharedCapabilities ∧
      Codec.encode message context.sharedCapabilities = .ok frame.payload := by
  simp only [encodeFrame, generateSequenceNumber, Action.bind_eq_ok, Action.get_eq_ok, Action.modify_eq_ok,
    Action.pure_eq_ok, Action.lift_eq_ok] at run
  obtain ⟨_,_,⟨_,_,⟨rfl,rfl⟩,_,_,rfl,rfl,rfl⟩,_,_,⟨rfl,rfl⟩,_,_,⟨encoded,rfl⟩,rfl,rfl⟩ := run
  exact ⟨rfl,rfl,rfl,encoded⟩

theorem encodeFrame_error {message : ServerMessage} {context next : ConnectionContext} {failure : Failure}
    (run : encodeFrame message context = .error failure next) :
    Codec.encode message context.sharedCapabilities = .error failure := by
  simp only [encodeFrame, generateSequenceNumber, Action.bind_eq_error, Action.bind_eq_ok, Action.get_eq_ok,
    Action.get_ne_error, Action.modify_eq_ok, Action.modify_ne_error, Action.pure_eq_ok, Action.pure_ne_error,
    Action.lift_eq_error, and_false, exists_false, or_false, false_or] at run
  obtain ⟨_,_,⟨_,_,⟨rfl,rfl⟩,_,_,rfl,rfl,rfl⟩,_,_,⟨rfl,rfl⟩,raised,-⟩ := run
  exact raised

theorem encodeFrames_encodes (messages : List ServerMessage) : Encodes (encodeFrames messages) := by
  induction messages with
  | nil =>
    intro context frames next run
    cases run
    simp [InOrder,consecutive]
  | cons message rest ih =>
    intro context frames next run
    simp only [encodeFrames, Action.bind_eq_ok, Action.pure_eq_ok] at run
    obtain ⟨frame,m,encoded,others,m',later,rfl,rfl⟩ := run
    obtain ⟨id,number,shared,-⟩ := encodeFrame_ok encoded
    obtain ⟨order,final,kept⟩ := ih _ _ _ later
    refine ⟨?_,?_,kept.trans shared⟩
    · rw [InOrder, List.map_cons, List.length_cons, consecutive, id, order, number]
    · rw [final, number, List.length_cons, UInt8.ofNat_add, UInt8.add_assoc, UInt8.add_comm 1]
      rfl

theorem encodeFrame_encodes (message : ServerMessage) :
    Encodes (encodeFrame message >>= fun frame => pure [frame]) := by
  intro context frames next run
  simp only [Action.bind_eq_ok, Action.pure_eq_ok] at run
  obtain ⟨frame,_,encoded,rfl,rfl⟩ := run
  obtain ⟨id,number,shared,-⟩ := encodeFrame_ok encoded
  exact ⟨by simp [InOrder,consecutive,id],number,shared⟩

omit [Codec] in
theorem Session.reply_eq (x : Action ConnectionContext Frame) :
    Session.reply x = Session.replyAll (x >>= fun frame => pure [frame]) := by
  funext s
  simp only [reply, replyAll, onContext, bind, EStateM.bind]
  cases x s.context <;> rfl

theorem reply_replies (message : ServerMessage) : Replies (Session.reply (encodeFrame message)) := by
  rw [Session.reply_eq]
  exact (encodeFrame_encodes message).replies

theorem dump_replies (events : List Bytes) : Replies (Session.dump events) := by
  induction events with
  | nil => exact .pure ()
  | cons eventData rest ih => exact .bind (reply_replies _) fun _ => ih

theorem QueryHandler.encodes (handler : QueryHandler) : Encodes handler.run := by
  cases handler with
  | ok => exact encodeFrame_encodes .ok
  | resultset rows columns =>
    intro context frames next run
    rw [QueryHandler.run, encodeResultset, Action.get_bind_run] at run
    exact encodeFrames_encodes _ _ _ _ run

theorem answer_replies (service : Service) : Replies (Session.answer service) := by
  refine .bind .get fun s => ?_
  cases s.context.clientCommand with
  | query =>
    cases service.knownQueries.lookup s.context.clientMessage.statement with
    | none => exact .bind (reply_replies _) fun _ => .pure false
    | some handler => exact .bind (QueryHandler.encodes handler).replies fun _ => .pure false
  | ping => exact .bind (reply_replies _) fun _ => .pure false
  | binlogDump => exact .bind (dump_replies _) fun _ => .bind (reply_replies _) fun _ => .pure true
  | quit => exact .pure true
  | _ => exact .bind (reply_replies _) fun _ => .pure false

/-- After a command that is known the next number is the one after its own. -/
theorem parseClientCommand_known {payload : Bytes} {context next : ConnectionContext} {u : Unit}
    (known : ClientCommandType.ofByte (payload.getD frameHeaderLength 0) ≠ .unknown)
    (run : parseClientCommand payload context = .ok u next) :
    next.sequenceNumber = context.sequenceNumber + 1 ∧ next.sharedCapabilities = context.sharedCapabilities := by
  rw [parseClientCommand, Action.raiseIf_bind_run] at run
  split at run
  · cases run
  · simp only [validateAndUpdateSequenceNumber, Action.bind_eq_ok, Action.get_eq_ok, Action.lift_eq_ok,
      Action.modify_eq_ok] at run
    obtain ⟨_,_,⟨rfl,rfl⟩,message,_,⟨-,rfl⟩,_,_,⟨_,_,⟨rfl,rfl⟩,_,_,⟨-,rfl⟩,rfl⟩,rfl⟩ := run
    exact ⟨rfl,rfl⟩

/-- After another command it is still the number of the command. -/
theorem parseClientCommand_unknown {payload : Bytes} (context : ConnectionContext)
    (unknown : ClientCommandType.ofByte (payload.getD frameHeaderLength 0) = .unknown) :
    parseClientCommand payload context =
      if payload.length ≤ frameHeaderLength then .error ⟨.runtimeError,"Protocol error"⟩ context
      else .ok () { context with clientCommand := .unknown } := by
  rw [parseClientCommand, Action.raiseIf_bind_run]
  simp only [unknown, if_true]
  rfl

omit [Codec] in
theorem not_inOrder_zero {frame : Frame} (zero : frame.seqId = 0) : ¬ InOrder 1 [frame] := by
  intro order
  have first : frame.seqId = 1 := (List.cons.inj order).1
  rw [zero] at first
  exact absurd first (by decide)

/-- The context of a round when it has been entered. -/
private def entered (context : ConnectionContext) : ConnectionContext := { context with
  sequenceNumber := 0
  clientCommand := .unknown
  clientMessage := { context.clientMessage with statement := [] } }

private theorem commandLoopIteration_eq (service : Service) (data : Bytes) (context : ConnectionContext) :
    Session.commandLoopIteration service data ⟨context,[]⟩ =
      (do Session.onContext (parseClientCommand data); Session.answer service : Action Session Bool) ⟨entered context,[]⟩ :=
  rfl

/-- A round for a command that is known sends frames from one on. -/
theorem commandLoopIteration_known (service : Service) {data : Bytes} (context : ConnectionContext)
    (known : ClientCommandType.ofByte (data.getD frameHeaderLength 0) ≠ .unknown) :
    InOrder 1 ((Session.commandLoopIteration service data).after ⟨context,[]⟩).frames ∧
      ∀ ended s, Session.commandLoopIteration service data ⟨context,[]⟩ = .ok ended s →
        s.context.sharedCapabilities = context.sharedCapabilities := by
  rw [Action.after, commandLoopIteration_eq]
  cases parsed : parseClientCommand data (entered context) with
  | error failure next =>
    have raised : Session.onContext (parseClientCommand data) ⟨entered context,[]⟩ = .error failure ⟨next,[]⟩ := by
      rw [Session.onContext, parsed]
    rw [Action.bind_eq_error.mpr (.inl raised)]
    exact ⟨rfl,fun _ _ returned => by cases returned⟩
  | ok u next =>
    have returned : Session.onContext (parseClientCommand data) ⟨entered context,[]⟩ = .ok u ⟨next,[]⟩ := by
      rw [Session.onContext, parsed]
    rw [Action.bind_of_ok returned]
    obtain ⟨number,shared⟩ := parseClientCommand_known known parsed
    have numbered : Numbered 1 context.sharedCapabilities ⟨next,[]⟩ := ⟨rfl,number,shared⟩
    cases ran : Session.answer service ⟨next,[]⟩ with
    | ok ended t =>
      have after := (answer_replies service).returned numbered ran
      refine ⟨after.ids,fun _ s same => ?_⟩
      cases same
      exact after.shared
    | error failure t => exact ⟨(answer_replies service).raised numbered ran,fun _ _ same => by cases same⟩

/-- What keeps a command that is not known from being answered: its frame ends with the header, or the error cannot be
    encoded. -/
def Unanswered (capabilities : CapabilityBitset) (data : Bytes) : Prop :=
  data.length ≤ frameHeaderLength ∨
    ∃ failure, Codec.encode (.error 1047 "Unknown command" "HY000") capabilities = .error failure

/-- A round for another command sends nothing and raises, or it sends one frame with the number zero. -/
theorem commandLoopIteration_unknown (service : Service) {data : Bytes} (context : ConnectionContext)
    (unknown : ClientCommandType.ofByte (data.getD frameHeaderLength 0) = .unknown) :
    Unanswered context.sharedCapabilities data ∧
      (∃ failure s, Session.commandLoopIteration service data ⟨context,[]⟩ = .error failure s ∧ s.frames = []) ∨
    ¬ Unanswered context.sharedCapabilities data ∧
      ∃ s frame, Session.commandLoopIteration service data ⟨context,[]⟩ = .ok false s ∧
        s.context.sharedCapabilities = context.sharedCapabilities ∧ s.frames = [frame] ∧ frame.seqId = 0 := by
  rw [commandLoopIteration_eq]
  have parsed := parseClientCommand_unknown (entered context) unknown
  by_cases short : data.length ≤ frameHeaderLength
  · rw [if_pos short] at parsed
    have raised : Session.onContext (parseClientCommand data) ⟨entered context,[]⟩ =
        .error ⟨.runtimeError,"Protocol error"⟩ ⟨entered context,[]⟩ := by
      rw [Session.onContext, parsed]
    exact .inl ⟨.inl short,_,_,Action.bind_eq_error.mpr (.inl raised),rfl⟩
  · rw [if_neg short] at parsed
    have returned : Session.onContext (parseClientCommand data) ⟨entered context,[]⟩ = .ok () ⟨entered context,[]⟩ := by
      rw [Session.onContext, parsed]
      rfl
    rw [Action.bind_of_ok returned]
    have answered : Session.answer service ⟨entered context,[]⟩ =
        (do Session.reply generateEncodedUnknownCommand; pure false : Action Session Bool) ⟨entered context,[]⟩ := rfl
    rw [answered]
    cases ran : generateEncodedUnknownCommand (entered context) with
    | error failure next =>
      have raised : Session.reply generateEncodedUnknownCommand ⟨entered context,[]⟩ = .error failure ⟨next,[]⟩ := by
        refine Action.bind_eq_error.mpr (.inl ?_)
        rw [Session.onContext, ran]
      have raising := encodeFrame_error ran
      exact .inl ⟨.inr ⟨failure,raising⟩,_,_,Action.bind_eq_error.mpr (.inl raised),rfl⟩
    | ok frame next =>
      obtain ⟨number,-,shared,encoded⟩ := encodeFrame_ok ran
      have sent : Session.reply generateEncodedUnknownCommand ⟨entered context,[]⟩ = .ok () ⟨next,[frame]⟩ := by
        refine Action.bind_eq_ok.mpr ⟨frame,⟨next,[]⟩,?_,rfl⟩
        rw [Session.onContext, ran]
      refine .inr ⟨?_,⟨next,[frame]⟩,frame,Action.bind_of_ok sent,shared,rfl,number⟩
      rintro (few | ⟨failure,raised⟩)
      · exact short few
      · exact absurd (encoded.symm.trans raised) (by simp)

/-- The frames of a round are numbered from one just when something keeps the command from being answered or it is known. -/
theorem commandLoopIteration_iff (service : Service) (data : Bytes) (context : ConnectionContext) {s : Session}
    (left : (Session.commandLoopIteration service data).after ⟨context,[]⟩ = s) :
    (InOrder 1 s.frames ↔ Unanswered context.sharedCapabilities data ∨
      ClientCommandType.ofByte (data.getD frameHeaderLength 0) ≠ .unknown) ∧
    (ClientCommandType.ofByte (data.getD frameHeaderLength 0) = .unknown →
      (s.frames = [] ↔ Unanswered context.sharedCapabilities data)) := by
  subst left
  by_cases unknown : ClientCommandType.ofByte (data.getD frameHeaderLength 0) = .unknown
  · rcases commandLoopIteration_unknown service context unknown with
      ⟨without,failure,s,ran,none⟩ | ⟨answered,s,frame,ran,-,sent,zero⟩
    · rw [Action.after_error ran, none]
      exact ⟨iff_of_true rfl (.inl without),fun _ => iff_of_true rfl without⟩
    · rw [Action.after_ok ran, sent]
      exact ⟨iff_of_false (not_inOrder_zero zero) (not_or.mpr ⟨answered,not_not.mpr unknown⟩),
        fun _ => iff_of_false (List.cons_ne_nil _ _) answered⟩
  · exact ⟨iff_of_true (commandLoopIteration_known service context unknown).1 (.inr unknown),
      fun other => absurd other unknown⟩

theorem commandLoopIteration_shared {service : Service} {data : Bytes} {context : ConnectionContext} {ended : Bool}
    {s : Session} (ran : Session.commandLoopIteration service data ⟨context,[]⟩ = .ok ended s) :
    s.context.sharedCapabilities = context.sharedCapabilities := by
  by_cases unknown : ClientCommandType.ofByte (data.getD frameHeaderLength 0) = .unknown
  · rcases commandLoopIteration_unknown service context unknown with
      ⟨-,failure,t,raised,-⟩ | ⟨-,t,frame,returned,shared,-⟩
    · rw [ran] at raised
      cases raised
    · rw [ran] at returned
      cases returned
      exact shared
  · exact (commandLoopIteration_known service context unknown).2 ended s ran

/-- The frames of every response in every session are numbered from one, just when the command is known or something
    keeps it from being answered; and then, if it is not known, there are none. -/
theorem responses_numbered_iff (service : Service) (context : ConnectionContext) (commands : List Bytes)
    (exchange : Exchange) (made : exchange ∈ commandLoop service context commands) :
    (exchange.frames.map Frame.seqId = consecutive 1 exchange.frames.length ↔
      Unanswered context.sharedCapabilities exchange.command ∨
        ClientCommandType.ofByte (exchange.command.getD frameHeaderLength 0) ≠ .unknown) ∧
    (ClientCommandType.ofByte (exchange.command.getD frameHeaderLength 0) = .unknown →
      (exchange.frames = [] ↔ Unanswered context.sharedCapabilities exchange.command)) := by
  induction commands generalizing context with
  | nil => cases made
  | cons data rest ih =>
    rw [commandLoop] at made
    split at made
    · rename_i s ran
      rcases List.mem_cons.mp made with rfl | later
      · exact commandLoopIteration_iff service data context (Action.after_ok ran)
      · have numbered := ih s.context later
        rwa [commandLoopIteration_shared ran] at numbered
    · rename_i s ran
      rw [List.mem_singleton.mp made]
      exact commandLoopIteration_iff service data context (Action.after_ok ran)
    · rename_i failure s ran
      rw [List.mem_singleton.mp made]
      exact commandLoopIteration_iff service data context (Action.after_error ran)

end

/-! ## The queries of the server -/

/-- The rows and columns that are served. -/
def knownQueries : List (Bytes × QueryHandler) :=
  [(ascii "select * from tbl",
      .resultset [[.number (some 1),.number (some 100),.text (some "Alice"),.text (some "Cooper")],
        [.number (some 2),.number none,.text (some "Bob"),.text none]]
        [⟨"id","id",⟨true,false⟩⟩,⟨"optional_id","optional_id",⟨true,true⟩⟩,⟨"name","name",⟨false,false⟩⟩,
          ⟨"optional_name","optional_name",⟨false,true⟩⟩]),
    (ascii "select @@version_comment limit 1",
      .resultset [[.text (some "Percona Binlog Server - GPL")]] [⟨"@@version_comment","",⟨false,false⟩⟩]),
    (ascii "SELECT VERSION()",.resultset [[.text (some "9.7.0")]] [⟨"VERSION()","",⟨false,false⟩⟩]),
    (ascii "SET @source_binlog_checksum = 'NONE', @master_binlog_checksum = 'NONE'",.ok),
    (ascii "SET @master_binlog_checksum = 'NONE', @source_binlog_checksum = 'NONE'",.ok)]

namespace Sample

/-- A codec that knows queries and encodes nothing but the kind of a message. -/
@[reducible] def codec : Codec where
  decode command _ payload := .ok (if command = .query then { statement := payload.drop 1 } else {})
  encode message _ := match message with
    | .ok => .ok [0x00]
    | .eof _ => .ok [0xFE]
    | .error .. => .ok [0xFF]
    | _ => .ok []

/-- A command of a client with the sequence number zero. -/
def command (payload : Bytes) : Bytes := [UInt8.ofNat payload.length,0,0,0] ++ payload

end Sample

section
attribute [local instance] Sample.codec

/-- The answer to a query has five frames: the number of columns, a column, its end, a row and its end. -/
theorem responses_numbered_version : ∃ exchange, exchange ∈ commandLoop ⟨knownQueries,[]⟩ {}
      [Sample.command (0x03 :: ascii "SELECT VERSION()"),Sample.command [0x01]] ∧ exchange.frames.length = 5 ∧
    exchange.frames.map Frame.seqId = consecutive 1 exchange.frames.length := by
  have made : commandLoop ⟨knownQueries,[]⟩ {}
      [Sample.command (0x03 :: ascii "SELECT VERSION()"),Sample.command [0x01]] =
      [⟨Sample.command (0x03 :: ascii "SELECT VERSION()"),[⟨1,[]⟩,⟨2,[]⟩,⟨3,[0xFE]⟩,⟨4,[]⟩,⟨5,[0xFE]⟩]⟩,
        ⟨Sample.command [0x01],[]⟩] := by decide +kernel
  refine ⟨_,made ▸ List.mem_cons_self,rfl,?_⟩
  exact (responses_numbered_iff ⟨knownQueries,[]⟩ {} _ _ (made ▸ List.mem_cons_self)).1.mpr (.inr (by decide))

/-- A command that is not known (`COM_STMT_PREPARE`) is answered with the sequence number zero. -/
theorem responses_misnumbered : commandLoop ⟨knownQueries,[]⟩ {} [Sample.command [0x16]] =
    [⟨Sample.command [0x16],[⟨0,[0xFF]⟩]⟩] ∧ [0] ≠ consecutive 1 1 := by decide +kernel

end
end BinlogServer.Minimysql
