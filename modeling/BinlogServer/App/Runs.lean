import BinlogServer.App.Steps
import BinlogServer.Events.RoundTrip
import BinlogServer.Store.Refinement

/-!
# The events of a session

A packet leads to one event that is processed, or to none, or, in the rewrite mode, to several. `Processes` is a run of
a session by events, wherever they come from; what `receive_binlog_events` does with its packets is such a run.
-/

namespace BinlogServer.App
open ByteString Util Gtids Events Store

namespace Session

/-- The loop of `receive_binlog_events`. -/
def receivePackets [Externals] (config : Config) : List Bytes → Action Session Unit
  | [] => pure ()
  | packet :: rest => do
    receivePacket config packet
    receivePackets config rest

/-- The restart point; what the source has purged counts as purged for a storage that is empty. -/
theorem switchToReplication_ok {gtidPurged : Bytes} {s t : Storage} {point : RestartPoint}
    (switched : switchToReplication gtidPurged s = .ok point t) :
    s.isInGtidReplicationMode = true ∧
        (if s.isEmpty = true then ∃ purged, GtidSet.ofText gtidPurged = .ok purged ∧ t = s.withPurgedGtids purged
          else t = s) ∧
        (∃ encoded rest, t.getGtids.encodeTo (List.replicate t.getGtids.calculateEncodedSize 0) = .ok (encoded,rest) ∧
          point = .gtids encoded) ∨
      s.isInGtidReplicationMode = false ∧ t = s ∧
        point = if s.isEmpty then .beginning else .position s.getCurrentBinlogName.str s.getCurrentPosition := by
  simp only [switchToReplication, Action.bind_eq_ok, Action.get_eq_ok] at switched
  obtain ⟨_,_,⟨rfl,rfl⟩,switched⟩ := switched
  split at switched
  · rename_i mode
    refine .inl ⟨mode,?_⟩
    split at switched
    · rename_i empty
      simp only [Storage.setPurgedGtids, Action.bind_eq_ok, Action.lift_eq_ok, Action.get_eq_ok, Action.modify_eq_ok,
        Action.pure_eq_ok] at switched
      obtain ⟨purged,_,⟨parsed,rfl⟩,_,_,⟨_,_,⟨rfl,rfl⟩,_,_,⟨-,rfl⟩,_,_,⟨-,rfl⟩,rfl⟩,_,_,⟨rfl,rfl⟩,⟨encoded,rest⟩,_,
        ⟨made,rfl⟩,rfl,rfl⟩ := switched
      rw [if_pos empty]
      exact ⟨⟨purged,parsed,rfl⟩,encoded,rest,made,rfl⟩
    · rename_i nonempty
      simp only [Action.bind_eq_ok, Action.lift_eq_ok, Action.get_eq_ok, Action.pure_eq_ok] at switched
      obtain ⟨_,_,⟨rfl,rfl⟩,⟨encoded,rest⟩,_,⟨made,rfl⟩,rfl,rfl⟩ := switched
      rw [if_neg nonempty]
      exact ⟨rfl,encoded,rest,made,rfl⟩
  · rename_i mode
    refine .inr ⟨by simpa using mode,?_⟩
    split at switched <;> rename_i size
    all_goals
      obtain ⟨rfl,rfl⟩ := Action.pure_eq_ok.mp switched
      simp [size]

theorem connect_ok {config : Config} {serverVersion : Nat} {gtidPurged : Bytes} {clock calendar : Nat → Nat} {s : Storage}
    {point : RestartPoint} {session : Session}
    (connected : connect config serverVersion gtidPurged clock calendar s = .ok (point,session)) :
    ∃ t, switchToReplication gtidPurged s = .ok point t ∧
      session = ⟨t,readerFor config serverVersion t,clock,calendar⟩ := by
  unfold connect at connected
  split at connected
  · rename_i answered t switched
    obtain ⟨rfl,rfl⟩ := Prod.mk.inj (Except.ok.inj connected)
    exact ⟨t,switched,rfl⟩
  · cases connected

/-- An event that has been processed, and the session before and after it. -/
structure Processed where
  before : Session
  event : EventView
  after : Session

/-- The events that a session processes, one after the other. -/
inductive Processes [Externals] (start : Session) : List Processed → Session → Prop where
  | stay : Processes start [] start
  /-- Only the calendar is asked. -/
  | aged {trace : List Processed} {session : Session} (before : Processes start trace session) :
      Processes start trace session.aged
  | event {trace : List Processed} {session session' : Session} {event : EventView}
      (before : Processes start trace session) (sound : event.Sound)
      (processed : processBinlogEvent event session = .ok () session') :
      Processes start (trace ++ [⟨session,event,session'⟩]) session'

section Generated
variable {session session' : Session} {event : EventView} {offset serverId : Nat}

theorem viewOf_ok {generated : Fallible Bytes} (run : viewOf generated session = .ok event session') :
    ∃ portion, generated = .ok portion ∧ EventView.make session.context portion = .ok event ∧ session' = session := by
  simp only [viewOf, Action.bind_eq_ok, Action.lift_eq_ok, Action.get_eq_ok] at run
  obtain ⟨portion,_,⟨made,rfl⟩,_,_,⟨rfl,rfl⟩,view,rfl⟩ := run
  exact ⟨portion,made,view,rfl⟩

/-- A ROTATE names the start of a file. -/
theorem generateRotateEvent_ok {artificial : Bool} {binlogName : CompositeBinlogName}
    (run : generateRotateEvent offset serverId artificial binlogName session = .ok event session') :
    session' = (if artificial then session else session.aged) ∧ EventView.make session.context event.portion = .ok event ∧
      ∃ timestamp, createEvent .rotate offset timestamp serverId (if artificial then artificialFlag else 0)
        (RotatePostHeader.encode magicBinlogOffset) binlogName.str session.context.footerExpected = .ok event.portion ∧
        (artificial = true → timestamp = 0) := by
  simp only [generateRotateEvent, Action.bind_eq_ok, Action.get_eq_ok] at run
  obtain ⟨_,_,⟨rfl,rfl⟩,run⟩ := run
  cases artificial with
  | true =>
    simp only [if_true, pure_bind] at run ⊢
    obtain ⟨portion,created,view,rfl⟩ := viewOf_ok run
    obtain rfl := (EventView.make_sound view).2
    exact ⟨rfl,view,0,created,fun _ => rfl⟩
  | false =>
    simp only [Bool.false_eq_true, if_false, Action.bind_eq_ok, currentTime_eq_ok] at run ⊢
    obtain ⟨timestamp,_,⟨-,rfl⟩,run⟩ := run
    obtain ⟨portion,created,view,rfl⟩ := viewOf_ok run
    obtain rfl := (EventView.make_sound view).2
    exact ⟨rfl,view,timestamp,created,by simp⟩

theorem generateFormatDescriptionEvent_ok
    (run : generateFormatDescriptionEvent offset serverId session = .ok event session') :
    session' = session.aged.aged ∧ EventView.make session.context event.portion = .ok event ∧
      ∃ createTimestamp timestamp postHeader,
        (FormatDescriptionPostHeader.ofVersion (.ofEncoded session.context.currentEncodedServerVersion) createTimestamp
          (getHardcodedPostHeaderLengths
            (SemanticVersion.ofEncoded session.context.currentEncodedServerVersion).getEncoded)).encode = .ok postHeader ∧
        createEvent .formatDescription offset timestamp serverId 0 postHeader (FormatDescriptionBody.encode .crc32) true =
          .ok event.portion := by
  simp only [generateFormatDescriptionEvent, Action.bind_eq_ok, Action.get_eq_ok, currentTime_eq_ok] at run
  obtain ⟨_,_,⟨rfl,rfl⟩,createTimestamp,_,⟨-,rfl⟩,timestamp,_,⟨-,rfl⟩,run⟩ := run
  obtain ⟨portion,created,view,rfl⟩ := viewOf_ok run
  obtain rfl := (EventView.make_sound view).2
  obtain ⟨postHeader,encoded,created⟩ := bind_eq_ok.mp created
  exact ⟨rfl,view,createTimestamp,timestamp,postHeader,encoded,created⟩

theorem generatePreviousGtidsLogEvent_ok {gtids : GtidSet}
    (run : generatePreviousGtidsLogEvent offset serverId gtids session = .ok event session') :
    session' = session.aged ∧ EventView.make session.context event.portion = .ok event ∧
      ∃ body rest timestamp, gtids.encodeTo (List.replicate gtids.calculateEncodedSize 0) = .ok (body,rest) ∧
        createEvent .previousGtidsLog offset timestamp serverId 0 [] body true = .ok event.portion := by
  simp only [generatePreviousGtidsLogEvent, Action.bind_eq_ok, Action.lift_eq_ok, currentTime_eq_ok] at run
  obtain ⟨⟨body,rest⟩,_,⟨encoded,rfl⟩,timestamp,_,⟨-,rfl⟩,run⟩ := run
  obtain ⟨portion,created,view,rfl⟩ := viewOf_ok run
  obtain rfl := (EventView.make_sound view).2
  exact ⟨rfl,view,body,rest,timestamp,encoded,created⟩

theorem generateFormatDescriptionEvent_sound
    (run : generateFormatDescriptionEvent offset serverId session = .ok event session') :
    event.Sound ∧ event.getTypeCode = .formatDescription := by
  obtain ⟨-,view,_,_,_,-,created⟩ := generateFormatDescriptionEvent_ok run
  exact ⟨(EventView.make_sound view).1,(createEvent_header (by decide) created).2⟩

theorem generatePreviousGtidsLogEvent_sound {gtids : GtidSet}
    (run : generatePreviousGtidsLogEvent offset serverId gtids session = .ok event session') :
    event.Sound ∧ event.getTypeCode = .previousGtidsLog := by
  obtain ⟨-,view,_,_,_,-,created⟩ := generatePreviousGtidsLogEvent_ok run
  exact ⟨(EventView.make_sound view).1,(createEvent_header (by decide) created).2⟩

end Generated

section
variable [Externals] {session session' : Session} {event : EventView} {serverId : Nat} {binlogName : CompositeBinlogName}
  {config : RewriteConfig} {u : Unit}

/-- A local file is ended by a ROTATE. -/
theorem endLocalFile_ok (run : endLocalFile serverId binlogName session = .ok u session') :
    ∃ rotate, generateRotateEvent (session.storage.getCurrentPosition % 2 ^ 32) serverId false binlogName session =
        .ok rotate session.aged ∧
      processBinlogEvent rotate session.aged = .ok () session' := by
  simp only [endLocalFile, Action.bind_eq_ok, Action.get_eq_ok] at run
  obtain ⟨_,_,⟨rfl,rfl⟩,rotate,m,generated,processed⟩ := run
  obtain rfl : m = session.aged := (generateRotateEvent_ok generated).1
  exact ⟨rotate,generated,processed⟩

/-- A local file is started by three events. -/
theorem startLocalFile_ok (run : startLocalFile serverId binlogName session = .ok u session') :
    ∃ rotate entered description described previousGtids,
      generateRotateEvent 0 serverId true binlogName session = .ok rotate session ∧
      processBinlogEvent rotate session = .ok () entered ∧
      generateFormatDescriptionEvent magicBinlogOffset serverId entered = .ok description entered.aged.aged ∧
      processBinlogEvent description entered.aged.aged = .ok () described ∧
      generatePreviousGtidsLogEvent ((magicBinlogOffset + description.getTotalSize) % 2 ^ 32) serverId
        described.storage.getGtids described = .ok previousGtids described.aged ∧
      processBinlogEvent previousGtids described.aged = .ok () session' := by
  simp only [startLocalFile, Action.bind_eq_ok, Action.get_eq_ok] at run
  obtain ⟨rotate,_,rotated,_,entered,enter,description,_,generated,_,described,describe,_,_,⟨rfl,rfl⟩,previousGtids,_,
    encoded,finish⟩ := run
  obtain rfl := (generateRotateEvent_ok rotated).1
  obtain rfl := (generateFormatDescriptionEvent_ok generated).1
  obtain rfl := (generatePreviousGtidsLogEvent_ok encoded).1
  exact ⟨rotate,entered,description,described,previousGtids,rotated,enter,generated,describe,encoded,finish⟩

theorem changeLocalFile_ok (run : changeLocalFile serverId config session = .ok u session') :
    ∃ binlogName m, session.nextBinlogName config = .ok binlogName ∧
      (if session.context.isFresh = true then m = session else endLocalFile serverId binlogName session = .ok () m) ∧
      startLocalFile serverId binlogName m = .ok () session' := by
  simp only [changeLocalFile, Action.bind_eq_ok, Action.get_eq_ok, Action.lift_eq_ok] at run
  obtain ⟨_,_,⟨rfl,rfl⟩,binlogName,_,⟨named,rfl⟩,run⟩ := run
  cases fresh : session.context.isFresh with
  | true =>
    rw [fresh, if_neg (by simp)] at run
    exact ⟨binlogName,session,named,rfl,run⟩
  | false =>
    rw [fresh, if_pos rfl, Action.bind_eq_ok] at run
    obtain ⟨_,m,ended,started⟩ := run
    exact ⟨binlogName,m,named,by simpa using ended,started⟩

theorem processRewritten_ok (run : processRewritten event session = .ok u session') :
    ∃ rewritten, Rewriter.rewrite session.storage.getLastTransactionSequenceNumber event
        session.storage.getCurrentPosition = .ok rewritten ∧
      processBinlogEvent rewritten session = .ok () session' := by
  simp only [processRewritten, Action.bind_eq_ok, Action.get_eq_ok, Action.lift_eq_ok] at run
  obtain ⟨_,_,⟨rfl,rfl⟩,rewritten,_,⟨made,rfl⟩,processed⟩ := run
  exact ⟨rewritten,made,processed⟩

omit [Externals] in
theorem checkSkipped_ok (run : checkSkipped event session = .ok u session') : session' = session := by
  unfold checkSkipped at run
  split at run
  · simp only [Action.bind_eq_ok, Action.lift_eq_ok] at run
    obtain ⟨_,_,⟨-,rfl⟩,-,rfl⟩ := run
    rfl
  · exact (Action.pure_eq_ok.mp run).2.symm

/-- In `m` the local file of the next event is open: it was before, or it has been started. -/
def Prepared (serverId : Nat) (config : RewriteConfig) (session m : Session) : Prop :=
  if session.needsLocalFile config = true then changeLocalFile serverId config session = .ok () m else m = session

/-- An event of the source is left out, or it is rewritten at the end of a local file. -/
theorem rewriteAndProcessBinlogEvent_ok (run : rewriteAndProcessBinlogEvent serverId config event session = .ok u session') :
    isSkipped event.getTypeCode = true ∧ session' = session ∨
      isSkipped event.getTypeCode = false ∧ ∃ m, Prepared serverId config session m ∧
        processRewritten event m = .ok () session' := by
  unfold rewriteAndProcessBinlogEvent at run
  split at run
  · rename_i skipped
    exact .inl ⟨skipped,checkSkipped_ok run⟩
  · rename_i kept
    simp only [Action.bind_eq_ok, Action.get_eq_ok] at run
    obtain ⟨_,_,⟨rfl,rfl⟩,run⟩ := run
    refine .inr ⟨by simpa using kept,?_⟩
    split at run
    · rename_i needed
      obtain ⟨_,m,changed,rewritten⟩ := Action.bind_eq_ok.mp run
      exact ⟨m,by rw [Prepared, if_pos needed, changed],rewritten⟩
    · rename_i unneeded
      exact ⟨session,by rw [Prepared, if_neg unneeded],run⟩

theorem receivePacket_ok {config : Config} {packet : Bytes} (run : receivePacket config packet session = .ok u session') :
    ∃ event, EventView.make session.context packet.tail = .ok event ∧
      (config.rewrite = none → processBinlogEvent event session = .ok () session') ∧
      ∀ rewrite, config.rewrite = some rewrite →
        rewriteAndProcessBinlogEvent config.serverId rewrite event session = .ok () session' := by
  simp only [receivePacket, receiveEvent, Action.bind_eq_ok, Action.lift_eq_ok, Action.get_eq_ok] at run
  obtain ⟨_,_,⟨-,rfl⟩,_,_,⟨rfl,rfl⟩,event,_,⟨view,rfl⟩,run⟩ := run
  refine ⟨event,view,fun plain => ?_,fun rewrite mode => ?_⟩
  · rw [plain] at run
    exact run
  · rw [mode] at run
    exact run

end

/-- A packet whose event is stored as it is. -/
theorem receivePackets_cons [Externals] {config : Config} {session m : Session} {event : EventView} {portion : Bytes}
    (mode : config.rewrite = none) (view : EventView.make session.context portion = .ok event)
    (processed : processBinlogEvent event session = .ok () m) (rest : List Bytes) :
    receivePackets config ((0 :: portion) :: rest) session = receivePackets config rest m := by
  have received : receivePacket config (0 :: portion) session = .ok () m := by
    simp only [receivePacket, receiveEvent, Action.bind_eq_ok, Action.lift_eq_ok, Action.get_eq_ok, raiseIf_eq_ok, mode]
    exact ⟨(),session,⟨by simp,rfl⟩,session,session,⟨rfl,rfl⟩,event,session,⟨view,rfl⟩,processed⟩
  exact Action.bind_of_ok received

theorem receivePackets_append [Externals] {config : Config} {session session' : Session} {front back : List Bytes} :
    receivePackets config (front ++ back) session = .ok () session' ↔
      ∃ m, receivePackets config front session = .ok () m ∧ receivePackets config back m = .ok () session' := by
  induction front generalizing session with
  | nil => simp [receivePackets]
  | cons packet front ih =>
    simp only [List.cons_append, receivePackets, Action.bind_eq_ok, ih]
    constructor
    · rintro ⟨u,between,first,m,second,third⟩
      exact ⟨m,⟨u,between,first,second⟩,third⟩
    · rintro ⟨m,⟨u,between,first,second⟩,third⟩
      exact ⟨u,between,first,m,second,third⟩

theorem receivePackets_concat [Externals] {config : Config} {session session' : Session} {front : List Bytes}
    {packet : Bytes} : receivePackets config (front ++ [packet]) session = .ok () session' ↔
      ∃ m, receivePackets config front session = .ok () m ∧ receivePacket config packet m = .ok () session' := by
  rw [receivePackets_append]
  refine exists_congr fun m => and_congr_right fun _ => ?_
  simp only [receivePackets, Action.bind_eq_ok, Action.pure_eq_ok]
  constructor
  · rintro ⟨_,_,received,-,rfl⟩
    exact received
  · exact fun received => ⟨(),session',received,trivial,rfl⟩

/-- The storages of a process, with all the sessions it has had, and of the processes before it. -/
inductive Reachable [Externals] : Storage → Prop where
  | start {type : BackendType} {mode : ReplicationMode} {checkpoint : Checkpoint} {u : Unit} {s : Storage}
      (constructed : Storage.construct .streaming mode checkpoint { type := type, objects := .empty } = .ok u s) :
      Reachable s
  /-- Any operation, whatever calls it. -/
  | step {s t : Storage} (reachable : Reachable s) {operation : Operation} {now : Nat} {u : Unit}
      (allowed : operation.allowed s = true) (returned : operation.run now s = .ok u t) : Reachable t
  | session {s t : Storage} (reachable : Reachable s) {config : Config} {serverVersion : Nat} {gtidPurged : Bytes}
      {clock calendar : Nat → Nat} {point : RestartPoint} {packets : List Bytes} {session session' : Session}
      {endOfStream : Bool} {u v : Unit}
      (connected : connect config serverVersion gtidPurged clock calendar s = .ok (point,session))
      (received : receivePackets config packets session = .ok u session')
      (disconnected : disconnect endOfStream session'.storage = .ok v t) : Reachable t
  | restart {s t : Storage} (reachable : Reachable s) {mode : ReplicationMode} {checkpoint : Checkpoint} {u : Unit}
      (constructed : Storage.construct .streaming mode checkpoint s.destroy = .ok u t) : Reachable t
  | purge {s p q t : Storage} (reachable : Reachable s) {mode : ReplicationMode} {settings checkpoint : Checkpoint}
      {u v : Unit} {target : CompositeBinlogName} {result : List BinlogRecord × String}
      (examined : Storage.construct .purging mode settings s.destroy = .ok u p)
      (purged : Storage.purgeBinlogs target p = .ok result q)
      (constructed : Storage.construct .streaming mode checkpoint q.destroy = .ok v t) : Reachable t

namespace Processes
variable [Externals] {start session session' : Session} {trace : List Processed} {u : Unit}

/-- A run goes on with an event that has been made. -/
theorem make (before : Processes start trace session) {context : ReaderContext} {portion : Bytes} {event : EventView}
    (view : EventView.make context portion = .ok event) (processed : processBinlogEvent event session = .ok () session') :
    ∃ rest, Processes start (trace ++ rest) session' :=
  ⟨_,before.event (EventView.make_sound view).1 processed⟩

theorem startLocalFile (before : Processes start trace session) {serverId : Nat} {binlogName : CompositeBinlogName}
    (run : startLocalFile serverId binlogName session = .ok u session') :
    ∃ rest, Processes start (trace ++ rest) session' := by
  obtain ⟨rotate,entered,description,described,previousGtids,rotated,enter,generated,describe,encoded,finish⟩ :=
    startLocalFile_ok run
  obtain ⟨first,before⟩ := before.make (generateRotateEvent_ok rotated).2.1 enter
  obtain ⟨second,before⟩ := before.aged.aged.make (generateFormatDescriptionEvent_ok generated).2.1 describe
  obtain ⟨third,before⟩ := before.aged.make (generatePreviousGtidsLogEvent_ok encoded).2.1 finish
  exact ⟨first ++ second ++ third,by simpa using before⟩

theorem prepared (before : Processes start trace session) {serverId : Nat} {config : RewriteConfig}
    (prepared : Prepared serverId config session session') : ∃ rest, Processes start (trace ++ rest) session' := by
  unfold Prepared at prepared
  split at prepared
  · obtain ⟨binlogName,m,-,ended,started⟩ := changeLocalFile_ok prepared
    split at ended
    · subst ended
      exact before.startLocalFile started
    · obtain ⟨rotate,rotated,processed⟩ := endLocalFile_ok ended
      obtain ⟨first,before⟩ := before.aged.make (generateRotateEvent_ok rotated).2.1 processed
      obtain ⟨second,before⟩ := before.startLocalFile started
      exact ⟨first ++ second,by simpa using before⟩
  · subst prepared
    exact ⟨[],by simpa using before⟩

theorem receivePacket (before : Processes start trace session) {config : Config} {packet : Bytes}
    (run : receivePacket config packet session = .ok u session') : ∃ rest, Processes start (trace ++ rest) session' := by
  obtain ⟨event,view,plain,rewritten⟩ := receivePacket_ok run
  cases mode : config.rewrite with
  | none => exact before.make view (plain mode)
  | some rewrite =>
    rcases rewriteAndProcessBinlogEvent_ok (rewritten rewrite mode) with ⟨-,rfl⟩ | ⟨-,m,prepared,run⟩
    · exact ⟨[],by simpa using before⟩
    · obtain ⟨first,before⟩ := before.prepared prepared
      obtain ⟨relocated,made,processed⟩ := processRewritten_ok run
      have sound := (Rewriter.rewrite_spec (EventView.make_sound view).1 made).sound
      exact ⟨_,by rw [← List.append_assoc]; exact before.event sound processed⟩

/-- What a session does with its packets is a run by events. -/
theorem receivePackets (before : Processes start trace session) {config : Config} {packets : List Bytes}
    (run : receivePackets config packets session = .ok u session') : ∃ rest, Processes start (trace ++ rest) session' := by
  induction packets generalizing session trace with
  | nil =>
    obtain ⟨-,rfl⟩ := Action.pure_eq_ok.mp run
    exact ⟨[],by simpa using before⟩
  | cons packet packets ih =>
    obtain ⟨_,m,received,run⟩ := Action.bind_eq_ok.mp run
    obtain ⟨first,before⟩ := before.receivePacket received
    obtain ⟨second,before⟩ := ih before run
    exact ⟨first ++ second,by simpa using before⟩

end Processes
end Session
end BinlogServer.App
