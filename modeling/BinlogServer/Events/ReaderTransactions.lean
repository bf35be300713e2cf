import BinlogServer.Events.ReaderGrammar

/-!
# The length of a transaction

The reader adds up the sizes of the events of a transaction in 32 bits and compares the sum with the length the GTID
event declares. Where it finds them equal, they are so modulo 2^32, and no more than that.
-/

namespace BinlogServer.Events
open ByteString Util Gtids

namespace ReaderContext

theorem processEvents_append {context context' : ReaderContext} {first second : List EventView} {flags : List Bool}
    (accepted : context.processEvents (first ++ second) = .ok (flags,context')) :
    ∃ before middle after, context.processEvents first = .ok (before,middle) ∧
      middle.processEvents second = .ok (after,context') := by
  induction first generalizing context flags with
  | nil => exact ⟨[],context,flags,rfl,accepted⟩
  | cons event rest ih =>
    simp only [List.cons_append, processEvents, bind_eq_ok, pure_eq_ok, Prod.mk.injEq, Prod.exists] at accepted
    obtain ⟨infoOnly,next,step,_,_,remaining,rfl,rfl⟩ := accepted
    obtain ⟨before,middle,after,front,back⟩ := ih remaining
    refine ⟨infoOnly :: before,middle,after,?_,back⟩
    simp only [processEvents, bind_eq_ok, pure_eq_ok, Prod.mk.injEq, Prod.exists]
    exact ⟨infoOnly,next,step,before,middle,front,rfl,rfl⟩

theorem processEvents_settled {context context' : ReaderContext} {events : List EventView} {flags : List Bool}
    (settled : context.Settled) (accepted : context.processEvents events = .ok (flags,context')) : context'.Settled :=
  (@processEvents_run (fun _ _ _ => True) (fun _ _ => trivial) events [] [] flags context context' trivial settled
    accepted).2

/-- The transaction that is being read: what its first event declares, and what has been counted so far. -/
structure Counts (context : ReaderContext) (group : Group) : Prop where
  state : context.state = .anyOtherExpected
  declared : ∃ gtid sequenceNumber,
    group.start.transactionInfo = .ok (gtid,sequenceNumber,context.expectedTransactionLength)
  short : context.expectedTransactionLength < 2 ^ 32
  current : context.currentTransactionLength = group.size % 2 ^ 32

section
variable {context context' : ReaderContext} {event : EventView} {infoOnly : Bool} {group : Group}

theorem Counts.start (step : Step context event infoOnly context') (code : event.getTypeCode.isGtid = true) :
    Counts context' ⟨event,[]⟩ := by
  cases step with
  | gtid gtid sequenceNumber length start code known info named short position =>
    refine ⟨rfl,⟨gtid,sequenceNumber,info⟩,short,?_⟩
    simpa [Group.size,Group.events] using (Nat.mod_eq_of_lt event.getEventSizeRaw_lt).symm
  | artificialRotate _ rotate => simp [rotate.code,CodeType.isGtid] at code
  | formatDescription _ _ found => simp [found,CodeType.isGtid] at code
  | previousGtids _ found => simp [found,CodeType.isGtid] at code
  | other _ plain => simp [plain.1] at code
  | terminator _ last =>
    rcases last.code with found | found <;> simp [found,CodeType.isGtid] at code

theorem Counts.other (counts : Counts context group) (step : Step context event infoOnly context')
    (plain : event.IsOther) : Counts context' ⟨group.start,group.rest ++ [event]⟩ := by
  cases step with
  | other start _ within position =>
    refine ⟨start,counts.declared,counts.short,?_⟩
    have size : Group.size ⟨group.start,group.rest ++ [event]⟩ = group.size + event.getEventSizeRaw := by
      simp [Group.size,Group.events]
      omega
    simp [size,counts.current]
  | artificialRotate _ rotate => exact absurd rotate.code plain.2.1
  | formatDescription _ _ found => exact absurd found plain.2.2.2.1
  | previousGtids _ found => exact absurd found plain.2.2.2.2.1
  | gtid _ _ _ _ code => simp [plain.1] at code
  | terminator _ last =>
    rcases last.code with found | found
    · exact absurd found plain.2.1
    · exact absurd found plain.2.2.1

/-- Only where the count is the length declared does anything but another event of the transaction follow. -/
theorem Counts.closed (counts : Counts context group) (step : Step context event infoOnly context')
    (closes : ¬ event.IsOther) : context.currentTransactionLength = context.expectedTransactionLength := by
  have between : context.state = .rotateArtificialExpected ∨ context.Between →
      context.currentTransactionLength = context.expectedTransactionLength := by
    simp [Between,counts.state]
  cases step with
  | artificialRotate start => exact between start
  | gtid _ _ _ start => exact between (.inr start)
  | terminator start => exact between (.inr start)
  | other _ plain => exact absurd plain closes
  | formatDescription _ start => simp [counts.state] at start
  | previousGtids start => simp [counts.state] at start

theorem Counts.run {events : List EventView} {flags : List Bool} (counts : Counts context group)
    (settled : context.Settled) (plain : ∀ event ∈ events, event.IsOther)
    (accepted : context.processEvents events = .ok (flags,context')) :
    Counts context' ⟨group.start,group.rest ++ events⟩ := by
  induction events generalizing context group flags with
  | nil =>
    simp only [processEvents, pure_eq_ok, Prod.mk.injEq] at accepted
    simpa [accepted.2] using counts
  | cons event rest ih =>
    simp only [processEvents, bind_eq_ok, pure_eq_ok, Prod.mk.injEq, Prod.exists] at accepted
    obtain ⟨infoOnly,next,first,later,_,remaining,rfl,rfl⟩ := accepted
    obtain ⟨here,others⟩ := List.forall_mem_cons.mp plain
    have step := processEventView_step settled first
    have result := ih (counts.other step here) (step.settled settled) others remaining
    simpa using result

end

/-- A transaction of an accepted stream: its events, and all of them, either because something else follows or because
    the reader says after them that it is at a boundary. -/
structure Whole (events : List EventView) (context : ReaderContext) (group : Group) : Prop where
  start : group.start.getTypeCode.isGtid = true
  rest : ∀ event ∈ group.rest, event.IsOther
  ends : ∃ earlier later, events = earlier ++ (group.events ++ later) ∧
    ((later = [] ∧ context.isAtTransactionBoundary = true) ∨ ∃ event ∈ later.head?, ¬ event.IsOther)

theorem Whole.size_mod {context context' : ReaderContext} {events : List EventView} {flags : List Bool} {group : Group}
    (settled : context.Settled) (accepted : context.processEvents events = .ok (flags,context'))
    (whole : Whole events context' group) :
    ∃ gtid sequenceNumber length, group.start.transactionInfo = .ok (gtid,sequenceNumber,length) ∧
      length < 2 ^ 32 ∧ group.size % 2 ^ 32 = length := by
  obtain ⟨code,plain,earlier,later,rfl,ends⟩ := whole
  obtain ⟨_,opened,_,front,accepted⟩ := processEvents_append accepted
  have settled := processEvents_settled settled front
  obtain ⟨_,inside,after,middle,back⟩ := processEvents_append accepted
  have settledInside := processEvents_settled settled middle
  have counts : Counts inside group := by
    simp only [Group.events, processEvents, bind_eq_ok, pure_eq_ok, Prod.mk.injEq, Prod.exists] at middle
    obtain ⟨infoOnly,next,first,_,_,remaining,-,rfl⟩ := middle
    have step := processEventView_step settled first
    simpa using (Counts.start step code).run (step.settled settled) plain remaining
  have reached : inside.currentTransactionLength = inside.expectedTransactionLength := by
    rcases ends with ⟨rfl,boundary⟩ | ⟨event,next,closes⟩
    · simp only [processEvents, pure_eq_ok, Prod.mk.injEq] at back
      rw [← back.2] at boundary
      simpa [isAtTransactionBoundary,counts.state] using boundary
    · obtain ⟨rest,rfl⟩ := List.head?_eq_some_iff.mp next
      simp only [processEvents, bind_eq_ok, Prod.exists] at back
      obtain ⟨infoOnly,next,first,-⟩ := back
      exact counts.closed (processEventView_step settledInside first) closes
  obtain ⟨gtid,sequenceNumber,info⟩ := counts.declared
  exact ⟨gtid,sequenceNumber,_,info,counts.short,counts.current.symm.trans reached⟩

/-- A transaction of an accepted stream is as long as it was declared exactly if it is shorter than 4 GiB. -/
theorem transaction_size_iff (version : Nat) (verify : Bool) (mode : ReplicationMode) (name : Bytes) (position : Nat)
    {events : List EventView} {flags : List Bool} {context : ReaderContext} {group : Group}
    (accepted : (make version verify mode name position).processEvents events = .ok (flags,context))
    (whole : Whole events context group) :
    ∃ gtid sequenceNumber length, group.start.transactionInfo = .ok (gtid,sequenceNumber,length) ∧
      (group.size = length ↔ group.size < 2 ^ 32) := by
  obtain ⟨gtid,sequenceNumber,length,info,short,same⟩ := whole.size_mod (make_settled ..) accepted
  exact ⟨gtid,sequenceNumber,length,info,by omega⟩

def sampleGroup : Group := ⟨⟨Sample.anonymousGtid 154,42,0⟩,[⟨Sample.xid 223,0,0⟩]⟩

theorem transaction_size_iff_sample : ∃ flags context,
    (make 80400 false .position Sample.name 0).processEvents sampleViews = .ok (flags,context) ∧
    Whole sampleViews context sampleGroup ∧ ∃ gtid sequenceNumber length,
      sampleGroup.start.transactionInfo = .ok (gtid,sequenceNumber,length) ∧ sampleGroup.size = length := by
  have ok : ((make 80400 false .position Sample.name 0).processEvents sampleViews).isOk = true := by decide +kernel
  cases accepted : (make 80400 false .position Sample.name 0).processEvents sampleViews with
  | error failure => simp [accepted,Except.isOk,Except.toBool] at ok
  | ok result =>
    have whole : Whole sampleViews result.2 sampleGroup :=
      ⟨by decide +kernel,by decide +kernel,sampleViews.take 3,sampleViews.drop 5,rfl,.inr ⟨_,rfl,by decide +kernel⟩⟩
    obtain ⟨gtid,sequenceNumber,length,info,same⟩ :=
      transaction_size_iff 80400 false .position Sample.name 0 accepted whole
    exact ⟨result.1,result.2,rfl,whole,gtid,sequenceNumber,length,info,same.mpr (by decide +kernel)⟩

/-- An event of 2^32 - 30 bytes, at an offset. -/
def largeEvent (offset : Nat) : Bytes :=
  CommonHeader.createWithOffset offset (2 ^ 32 - 30) 0 .xid 1 0 ++ List.replicate (2 ^ 32 - 49) 0

/-- A transaction that declares 96 bytes and has 2^32 + 96. -/
def wrappedGroup : Group where
  start := ⟨Sample.anonymousGtid 154,42,0⟩
  rest := [⟨largeEvent 223,0,0⟩,⟨Sample.encoded (createEvent .xid 193 0 1 0 [] (List.replicate 38 0) false),0,0⟩]

def wrappedViews : List EventView :=
  [⟨Sample.artificialRotate Sample.name 4,8,0⟩,⟨Sample.formatDescription,99,4⟩,⟨Sample.previousGtids,0,0⟩] ++
    wrappedGroup.events

theorem transaction_size_wraps : ∃ flags context,
    (make 80400 false .position Sample.name 0).processEvents wrappedViews = .ok (flags,context) ∧
    (∀ event ∈ wrappedViews, event.portion.length = event.getEventSizeRaw) ∧
    Whole wrappedViews context wrappedGroup ∧ wrappedGroup.size = 2 ^ 32 + 96 ∧
    wrappedGroup.start.transactionInfo = .ok (.empty,1,96) := by
  have boundary : ((make 80400 false .position Sample.name 0).processEvents wrappedViews).map
      (fun result => result.2.isAtTransactionBoundary) = .ok true := by decide +kernel
  cases accepted : (make 80400 false .position Sample.name 0).processEvents wrappedViews with
  | error failure => simp [accepted,Except.map] at boundary
  | ok result =>
    simp only [accepted, Except.map, Except.ok.injEq] at boundary
    have large : (largeEvent 223).length = 2 ^ 32 - 30 := by
      rw [largeEvent, List.length_append, CommonHeader.createWithOffset_length, List.length_replicate]
      rfl
    have sizes : ∀ event ∈ wrappedViews, event.portion.length = event.getEventSizeRaw := by
      simp only [wrappedViews, wrappedGroup, Group.events, List.cons_append, List.nil_append, List.forall_mem_cons]
      refine ⟨by decide +kernel,by decide +kernel,by decide +kernel,by decide +kernel,?_,by decide +kernel,by simp⟩
      rw [large]
      decide +kernel
    exact ⟨result.1,result.2,rfl,sizes,⟨by decide +kernel,by decide +kernel,_,[],(congrArg _ (List.append_nil _)).symm,
      .inl ⟨rfl,boundary⟩⟩,by decide +kernel,by decide +kernel⟩

end ReaderContext
end BinlogServer.Events
