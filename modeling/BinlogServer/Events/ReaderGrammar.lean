import BinlogServer.Events.Event
import BinlogServer.Events.ReaderSteps

/-!
# The grammar of an event stream

The streams of events that `process_event_view` accepts are sequences of cycles, one for each source file.
`Group` and `Cycle` are the phrases of that grammar; the last cycle, and the last group in it, may still
be on their way.
-/

namespace BinlogServer.Events
open ByteString Util Gtids

/-- A transaction: its GTID event and the events after it. -/
structure Group where
  start : EventView
  rest : List EventView

namespace Group

def events (group : Group) : List EventView := group.start :: group.rest

/-- The bytes of the group, as the headers of its events count them. -/
def size (group : Group) : Nat := (group.events.map EventView.getEventSizeRaw).sum

structure WellFormed (mode : ReplicationMode) (group : Group) : Prop where
  start : group.start.getTypeCode.isGtid = true
  anonymous : group.start.getTypeCode = .anonymousGtidLog → mode = .position
  rest : ∀ event ∈ group.rest, event.IsOther

/-- The group has the length its GTID event declares. -/
def Complete (group : Group) : Prop :=
  ∃ gtid sequenceNumber length,
    group.start.transactionInfo = .ok (gtid,sequenceNumber,length) ∧ group.size % 2 ^ 32 = length

end Group

/-- What the source sends of one of its files. -/
structure Cycle where
  rotate : EventView
  description : Option EventView := none
  previousGtids : Option EventView := none
  groups : List Group := []
  terminator : Option EventView := none
  /-- The cycle goes on with a file the storage already holds a part of. -/
  resumed : Bool

namespace Cycle

def events (cycle : Cycle) : List EventView :=
  cycle.rotate :: (cycle.description.toList ++ (cycle.previousGtids.toList ++
    (cycle.groups.flatMap Group.events ++ cycle.terminator.toList)))

/-- The answers of `process_event_view` to the events of the cycle. -/
def infoOnly (cycle : Cycle) : List Bool :=
  true :: (cycle.description.toList.map (fun _ => cycle.resumed) ++
    (cycle.previousGtids.toList.map (fun _ => cycle.resumed) ++
      ((cycle.groups.flatMap Group.events).map (fun _ => false) ++ cycle.terminator.toList.map fun _ => false)))

/-- The part before the transactions has been sent; PREVIOUS_GTIDS is not sent where position mode resumes. -/
def Described (mode : ReplicationMode) (cycle : Cycle) : Prop :=
  cycle.description.isSome ∧ (cycle.previousGtids = none ↔ mode = .position ∧ cycle.resumed = true)

/-- The cycle may be followed by another one. -/
def Complete (mode : ReplicationMode) (cycle : Cycle) : Prop :=
  cycle.Described mode ∧ ∀ group ∈ cycle.groups, group.Complete

structure WellFormed (mode : ReplicationMode) (cycle : Cycle) : Prop where
  rotate : cycle.rotate.IsArtificialRotate
  description : ∀ event ∈ cycle.description, event.getTypeCode = .formatDescription ∧ event.isArtificial = false
  previousGtids : ∀ event ∈ cycle.previousGtids, event.getTypeCode = .previousGtidsLog ∧ event.isArtificial = false
  omitted : cycle.previousGtids.isSome → cycle.Described mode
  described : cycle.groups ≠ [] ∨ cycle.terminator.isSome → cycle.Described mode
  groups : ∀ group ∈ cycle.groups, group.WellFormed mode
  whole : ∀ group ∈ cycle.groups.dropLast, group.Complete
  terminator : ∀ event ∈ cycle.terminator, event.IsTerminator
  ended : cycle.terminator.isSome → ∀ group ∈ cycle.groups, group.Complete

end Cycle

namespace ReaderContext

/-- `process_event_view` on one event after the other. -/
def processEvents : ReaderContext → List EventView → Fallible (List Bool × ReaderContext)
  | context, [] => pure ([],context)
  | context, event :: rest => do
    let (infoOnly,context) ← context.processEventView event
    let (flags,context) ← processEvents context rest
    pure (infoOnly :: flags,context)

/-- What holds of the events seen so far and is kept by every step holds of every accepted stream. -/
theorem processEvents_run {Inv : List EventView → List Bool → ReaderContext → Prop}
    (keeps : ∀ {seen flags context event infoOnly context'}, Inv seen flags context → Step context event infoOnly context' →
      Inv (seen ++ [event]) (flags ++ [infoOnly]) context')
    {events seen : List EventView} {before flags : List Bool} {context context' : ReaderContext}
    (start : Inv seen before context) (settled : context.Settled)
    (accepted : context.processEvents events = .ok (flags,context')) :
    Inv (seen ++ events) (before ++ flags) context' ∧ context'.Settled := by
  induction events generalizing seen before flags context with
  | nil =>
    simp only [processEvents, pure_eq_ok, Prod.mk.injEq] at accepted
    obtain ⟨rfl,rfl⟩ := accepted
    simpa using ⟨start,settled⟩
  | cons event rest ih =>
    simp only [processEvents, bind_eq_ok, pure_eq_ok, Prod.mk.injEq, Prod.exists] at accepted
    obtain ⟨infoOnly,next,first,later,_,remaining,rfl,rfl⟩ := accepted
    have step := processEventView_step settled first
    have result := ih (keeps start step) (step.settled settled) remaining
    simpa using result

/-- How far the reader is in a cycle. -/
inductive Reached (mode : ReplicationMode) (cycle : Cycle) (context : ReaderContext) : Prop where
  | named (state : context.state = .formatDescriptionExpected)
      (info : context.expectInfoOnlyPreambleEvents = cycle.resumed)
      (description : cycle.description = none) (previous : cycle.previousGtids = none)
      (groups : cycle.groups = []) (terminator : cycle.terminator = none)
  | described (state : context.state = .previousGtidsExpected)
      (info : context.expectInfoOnlyPreambleEvents = cycle.resumed)
      (description : cycle.description.isSome) (due : ¬ (mode = .position ∧ cycle.resumed = true))
      (previous : cycle.previousGtids = none) (groups : cycle.groups = []) (terminator : cycle.terminator = none)
  | opened (state : context.state = .gtidLogExpected) (described : cycle.Described mode)
      (groups : cycle.groups = []) (terminator : cycle.terminator = none)
  | inside (group : Group) (before : List Group) (state : context.state = .anyOtherExpected)
      (described : cycle.Described mode) (groups : cycle.groups = before ++ [group])
      (whole : ∀ group ∈ before, group.Complete)
      (declared : ∃ gtid sequenceNumber, group.start.transactionInfo =
        .ok (gtid,sequenceNumber,context.expectedTransactionLength))
      (current : group.size % 2 ^ 32 = context.currentTransactionLength) (terminator : cycle.terminator = none)
  | ended (state : context.state = .rotateArtificialExpected) (complete : cycle.Complete mode)

theorem Reached.complete {mode : ReplicationMode} {cycle : Cycle} {context : ReaderContext}
    (reached : Reached mode cycle context) (start : context.state = .rotateArtificialExpected ∨ context.Between) :
    cycle.Complete mode := by
  unfold Between at start
  cases reached with
  | named state => simp [state] at start
  | described state => simp [state] at start
  | opened state described groups => exact ⟨described,by simp [groups]⟩
  | inside group before state described groups whole declared current =>
    simp only [state, reduceCtorEq, false_or, true_and] at start
    obtain ⟨gtid,sequenceNumber,info⟩ := declared
    refine ⟨described,fun other member => ?_⟩
    rw [groups, List.mem_append, List.mem_singleton] at member
    rcases member with earlier | rfl
    · exact whole other earlier
    · exact ⟨gtid,sequenceNumber,_,info,current.trans start⟩
  | ended _ complete => exact complete

theorem Reached.terminator_eq {mode : ReplicationMode} {cycle : Cycle} {context : ReaderContext}
    (reached : Reached mode cycle context) (inside : context.state ≠ .rotateArtificialExpected) :
    cycle.terminator = none := by
  cases reached with
  | named _ _ _ _ _ terminator => exact terminator
  | described _ _ _ _ _ _ terminator => exact terminator
  | opened _ _ _ terminator => exact terminator
  | inside _ _ _ _ _ _ _ _ terminator => exact terminator
  | ended state => exact absurd state inside

/-- Whether the cycle at an index is the one that resumes the file the context was made for. -/
def Resumes (name : Bytes) (position index : Nat) (cycle : Cycle) : Prop :=
  cycle.resumed = true ↔ index = 0 ∧ cycle.rotate.getBodyRaw = name ∧ position > magicBinlogOffset

theorem resumes_concat {name : Bytes} {position : Nat} {done : List Cycle} {cycle : Cycle}
    (before : ∀ index cycle, done[index]? = some cycle → Resumes name position index cycle)
    (last : Resumes name position done.length cycle) (index : Nat) (other : Cycle)
    (found : (done ++ [cycle])[index]? = some other) : Resumes name position index other := by
  rcases Nat.lt_trichotomy index done.length with early | rfl | late
  · rw [List.getElem?_append_left early] at found
    exact before index other found
  · simp only [List.getElem?_concat_length, Option.some.injEq] at found
    exact found ▸ last
  · rw [List.getElem?_eq_none (by simp; omega)] at found
    cases found

/-- The events seen so far, read as cycles. -/
inductive Parsed (mode : ReplicationMode) (name : Bytes) (position : Nat) (seen : List EventView) (flags : List Bool)
    (context : ReaderContext) : Prop where
  | fresh (nothing : seen = []) (silent : flags = []) (modeIs : context.replicationMode = mode)
      (state : context.state = .rotateArtificialExpected) (number : context.cycleNumber = 0)
      (nameIs : context.binlogName = name)
      (positionIs : context.position > magicBinlogOffset ↔ position > magicBinlogOffset)
  | within (done : List Cycle) (cycle : Cycle)
      (events : seen = done.flatMap Cycle.events ++ cycle.events)
      (answers : flags = done.flatMap Cycle.infoOnly ++ cycle.infoOnly)
      (modeIs : context.replicationMode = mode) (number : context.cycleNumber = done.length + 1)
      (before : ∀ cycle ∈ done, cycle.WellFormed mode ∧ cycle.Complete mode)
      (resumed : ∀ index cycle, done[index]? = some cycle → Resumes name position index cycle)
      (current : cycle.WellFormed mode) (resumes : Resumes name position done.length cycle)
      (reached : Reached mode cycle context)

section
variable {mode : ReplicationMode} {name : Bytes} {position : Nat} {seen : List EventView} {flags : List Bool}
variable {context context' : ReaderContext} {event : EventView} {infoOnly : Bool}

/-- A step inside a file adds its event to the last cycle, whatever that makes of the cycle. -/
theorem Parsed.extend (parsed : Parsed mode name position seen flags context)
    (inside : context.state ≠ .rotateArtificialExpected)
    (mode_eq : context'.replicationMode = context.replicationMode)
    (number_eq : context'.cycleNumber = context.cycleNumber)
    (grows : ∀ cycle : Cycle, context.replicationMode = mode → cycle.WellFormed mode → Reached mode cycle context →
      ∃ next : Cycle,
      next.rotate = cycle.rotate ∧ next.resumed = cycle.resumed ∧ next.events = cycle.events ++ [event] ∧
      next.infoOnly = cycle.infoOnly ++ [infoOnly] ∧ next.WellFormed mode ∧ Reached mode next context') :
    Parsed mode name position (seen ++ [event]) (flags ++ [infoOnly]) context' := by
  cases parsed with
  | fresh _ _ _ state => exact absurd state inside
  | within done cycle events answers modeIs number before resumed current resumes reached =>
    obtain ⟨next,rotate,same,longer,infos,wellFormed,reached'⟩ := grows cycle modeIs current reached
    refine .within done next ?_ ?_ (mode_eq.trans modeIs) (number_eq.trans number) before resumed wellFormed ?_ reached'
    · rw [events, longer, List.append_assoc]
    · rw [answers, infos, List.append_assoc]
    · simpa only [Resumes, rotate, same] using resumes

/-- An artificial ROTATE opens a cycle. -/
theorem Parsed.open (parsed : Parsed mode name position seen flags context)
    (start : context.state = .rotateArtificialExpected ∨ context.Between) (rotate : event.IsArtificialRotate) :
    Parsed mode name position (seen ++ [event]) (flags ++ [true]) (context.left.enterBinlog event.getBodyRaw) := by
  have mode_eq : context.left.replicationMode = context.replicationMode := by
    unfold left
    split <;> rfl
  have number_eq : context.left.cycleNumber = context.cycleNumber := by
    unfold left
    split <;> rfl
  have wellFormed : ∀ resumed, ({ rotate := event, resumed := resumed } : Cycle).WellFormed mode := by
    intro resumed
    constructor <;> simp [rotate]
  let resumed := (context.left.enterBinlog event.getBodyRaw).expectInfoOnlyPreambleEvents
  have reached : Reached mode { rotate := event, resumed := resumed } (context.left.enterBinlog event.getBodyRaw) :=
    .named rfl rfl rfl rfl rfl rfl
  cases parsed with
  | fresh nothing silent modeIs state number nameIs positionIs =>
    refine .within [] { rotate := event, resumed := resumed } (by simp [nothing,Cycle.events])
      (by simp [silent,Cycle.infoOnly]) (by simp [mode_eq,modeIs]) (by simp [number_eq,number]) (by simp) (by simp)
      (wellFormed _) ?_ reached
    have same : context.left = context := if_pos state
    simp [Resumes,resumed,same,number,nameIs,positionIs]
  | within done cycle events answers modeIs number before resumedBefore current resumes reachedBefore =>
    refine .within (done ++ [cycle]) { rotate := event, resumed := resumed } (by simp [events,Cycle.events])
      (by simp [answers,Cycle.infoOnly]) (by simp [mode_eq,modeIs]) (by simp [number_eq,number]) ?_ ?_
      (wellFormed _) ?_ reached
    · intro other member
      rw [List.mem_append, List.mem_singleton] at member
      rcases member with earlier | rfl
      · exact before other earlier
      · exact ⟨current,reachedBefore.complete start⟩
    · exact resumes_concat resumedBefore resumes
    · simp [Resumes,resumed,number_eq,number]

/-- Every accepted event is read into the cycles. -/
theorem Parsed.step (parsed : Parsed mode name position seen flags context)
    (step : Step context event infoOnly context') :
    Parsed mode name position (seen ++ [event]) (flags ++ [infoOnly]) context' := by
  cases step with
  | artificialRotate start rotate => exact parsed.open start rotate
  | formatDescription layout start code plain =>
    refine parsed.extend (by simp [start]) rfl rfl fun cycle modeIs current reached => ?_
    cases reached with
    | described state | opened state | inside _ _ state | ended state => simp [start] at state
    | named state info description previous groups terminator =>
      refine ⟨{ cycle with description := some event },rfl,rfl,?_,?_,?_,?_⟩
      · simp [Cycle.events,description,previous,groups,terminator]
      · simp [Cycle.infoOnly,description,previous,groups,terminator,info]
      · exact { current with
          description := by simp [code,plain]
          omitted := by simp [previous]
          described := by simp [groups,terminator] }
      · by_cases resumes : mode = .position ∧ cycle.resumed = true
        · refine .opened ?_ ⟨rfl,by simp [previous,resumes]⟩ groups terminator
          simp [describedState,modeIs,info,resumes]
        · refine .described ?_ info rfl resumes previous groups terminator
          simp [describedState,modeIs,info,resumes]
  | previousGtids start code plain =>
    refine parsed.extend (by simp [start]) rfl rfl fun cycle modeIs current reached => ?_
    cases reached with
    | named state | opened state | inside _ _ state | ended state => simp [start] at state
    | described state info description due previous groups terminator =>
      have described : Cycle.Described mode { cycle with previousGtids := some event } :=
        ⟨description,by simpa using due⟩
      refine ⟨{ cycle with previousGtids := some event },rfl,rfl,?_,?_,?_,.opened rfl described groups terminator⟩
      · simp [Cycle.events,previous,groups,terminator]
      · simp [Cycle.infoOnly,previous,groups,terminator,info]
      · exact { current with
          previousGtids := by simp [code,plain]
          omitted := fun _ => described
          described := fun _ => described }
  | gtid gtid sequenceNumber length start code known declared =>
    have outside : context.state ≠ .rotateArtificialExpected := by
      rcases start with state | ⟨state,-⟩ <;> simp [state]
    refine parsed.extend outside rfl rfl fun cycle modeIs current reached => ?_
    obtain ⟨described,whole⟩ := reached.complete (.inr start)
    have terminator := reached.terminator_eq outside
    refine ⟨{ cycle with groups := cycle.groups ++ [⟨event,[]⟩] },rfl,rfl,?_,?_,?_,?_⟩
    · simp [Cycle.events,Group.events,terminator]
    · simp [Cycle.infoOnly,Group.events,terminator]
    · refine { current with described := fun _ => described, groups := ?_, whole := by simpa using whole,
                            ended := by simp [terminator] }
      intro group member
      rw [List.mem_append, List.mem_singleton] at member
      rcases member with earlier | rfl
      · exact current.groups group earlier
      · refine ⟨code,fun anonymous => ?_,by simp⟩
        by_contra other
        exact known (by cases mode <;> simp_all) anonymous
    · refine .inside ⟨event,[]⟩ cycle.groups rfl described rfl whole ⟨gtid,sequenceNumber,declared⟩ ?_ terminator
      simpa [Group.size,Group.events] using event.getEventSizeRaw_lt
  | other start plain =>
    refine parsed.extend (by simp [start]) rfl rfl fun cycle modeIs current reached => ?_
    cases reached with
    | named state | described state | opened state | ended state => simp [start] at state
    | inside group before state described groups whole declared current_eq terminator =>
      refine ⟨{ cycle with groups := before ++ [⟨group.start,group.rest ++ [event]⟩] },rfl,rfl,?_,?_,?_,?_⟩
      · simp [Cycle.events,Group.events,groups,terminator]
      · simp [Cycle.infoOnly,Group.events,groups,terminator]
      · refine { current with described := fun _ => described, groups := ?_, whole := by simpa using whole,
                              ended := by simp [terminator] }
        intro other member
        have known := current.groups
        rw [groups] at known
        rw [List.mem_append, List.mem_singleton] at member
        rcases member with earlier | rfl
        · exact known other (List.mem_append_left _ earlier)
        · have last := known group (by simp)
          refine ⟨last.start,last.anonymous,fun event' inside => ?_⟩
          rw [List.mem_append, List.mem_singleton] at inside
          rcases inside with earlier | rfl
          · exact last.rest event' earlier
          · exact plain
      · refine .inside _ before start described rfl whole declared ?_ terminator
        have size : Group.size ⟨group.start,group.rest ++ [event]⟩ = group.size + event.getEventSizeRaw := by
          simp [Group.size,Group.events]
          omega
        rw [size]
        simp [← current_eq]
  | terminator start last =>
    have outside : context.state ≠ .rotateArtificialExpected := by
      rcases start with state | ⟨state,-⟩ <;> simp [state]
    refine parsed.extend outside rfl rfl fun cycle modeIs current reached => ?_
    have complete := reached.complete (.inr start)
    have terminator := reached.terminator_eq outside
    refine ⟨{ cycle with terminator := some event },rfl,rfl,?_,?_,?_,.ended rfl complete⟩
    · simp [Cycle.events,terminator]
    · simp [Cycle.infoOnly,terminator]
    · exact { current with
        described := fun _ => complete.1
        terminator := by simp [last]
        ended := fun _ => complete.2 }

end

/-- The streams that are accepted from the start are sequences of cycles, and `info_only` is answered as the
    cycles say; only the last cycle may be incomplete. No call goes round its loop more than twice. -/
theorem processEvents_cycles (version : Nat) (verify : Bool) (mode : ReplicationMode) (name : Bytes) (position : Nat)
    {events : List EventView} {flags : List Bool} {context : ReaderContext}
    (accepted : (make version verify mode name position).processEvents events = .ok (flags,context)) :
    (∃ cycles : List Cycle,
      events = cycles.flatMap Cycle.events ∧ flags = cycles.flatMap Cycle.infoOnly ∧
      (∀ cycle ∈ cycles, cycle.WellFormed mode) ∧ (∀ cycle ∈ cycles.dropLast, cycle.Complete mode) ∧
      ∀ index cycle, cycles[index]? = some cycle → Resumes name position index cycle) ∧
    ∀ (context : ReaderContext) (event : EventView) (rounds : Nat),
      processLoop (rounds + 2) context event false = processLoop 2 context event false ∧
      processLoop 2 context event false ≠ .ok none := by
  refine ⟨?_,fun context event rounds => processLoop_two context event false rounds⟩
  have start : Parsed mode name position [] [] (make version verify mode name position) := by
    refine .fresh rfl rfl rfl rfl rfl rfl ?_
    simp only [make, magicBinlogOffset]
    split <;> omega
  have parsed := (processEvents_run Parsed.step start (make_settled ..) accepted).1
  simp only [List.nil_append] at parsed
  cases parsed with
  | fresh nothing silent => exact ⟨[],by simp [nothing],by simp [silent],by simp,by simp,by simp⟩
  | within done cycle events answers modeIs number before resumed current resumes reached =>
    refine ⟨done ++ [cycle],by simpa using events,by simpa using answers,?_,?_,?_⟩
    · intro other member
      rw [List.mem_append, List.mem_singleton] at member
      rcases member with earlier | rfl
      · exact (before other earlier).1
      · exact current
    · simpa using fun other member => (before other member).2
    · exact resumes_concat resumed resumes

/-- The views of a whole source file, from the artificial ROTATE that names it to the ROTATE at its end. -/
def sampleViews : List EventView :=
  [⟨Sample.artificialRotate Sample.name 4,8,0⟩,⟨Sample.formatDescription,99,4⟩,⟨Sample.previousGtids,0,0⟩,
    ⟨Sample.anonymousGtid 154,42,0⟩,⟨Sample.xid 223,0,0⟩,⟨Sample.rotate 250 Sample.name,8,0⟩]

theorem processEvents_cycles_sample : ∃ context,
    (make 80400 false .position Sample.name 0).processEvents sampleViews =
      .ok ([true,false,false,false,false,false],context) ∧
    ∃ cycles : List Cycle, sampleViews = cycles.flatMap Cycle.events ∧
      [true,false,false,false,false,false] = cycles.flatMap Cycle.infoOnly ∧
      (∀ cycle ∈ cycles, cycle.WellFormed .position) ∧ (∀ cycle ∈ cycles.dropLast, cycle.Complete .position) ∧
      ∀ index cycle, cycles[index]? = some cycle → Resumes Sample.name 0 index cycle := by
  have flags : ((make 80400 false .position Sample.name 0).processEvents sampleViews).map Prod.fst =
      .ok [true,false,false,false,false,false] := by decide +kernel
  cases accepted : (make 80400 false .position Sample.name 0).processEvents sampleViews with
  | error failure => simp [accepted,Except.map] at flags
  | ok result =>
    obtain ⟨answers,context⟩ := result
    simp only [accepted, Except.map, Except.ok.injEq] at flags
    subst flags
    exact ⟨context,rfl,(processEvents_cycles 80400 false .position Sample.name 0 accepted).1⟩

end ReaderContext
end BinlogServer.Events
