import BinlogServer.App.Lifetimes

/-!
# What a file has when it is closed

A file gets the events from the artificial ROTATE that names it to the next one. When that one closes it, what comes
after the last transaction is dropped, and the events of the preamble do not end a transaction: a file that has nothing
else, not even a terminator, loses them.
-/

namespace BinlogServer.App
open ByteString Util Gtids Events Store
open Store.Storage (Holds)

namespace Session

/-- A FORMAT_DESCRIPTION or a PREVIOUS_GTIDS, with which a file begins. -/
def isPreamble (event : EventView) : Bool :=
  event.getTypeCode = .formatDescription || event.getTypeCode = .previousGtidsLog

section
variable [Externals] {start session : Session} {files front : List LocalFile}

/-- The events from the artificial ROTATE that has started a file to the next one: they are held for the file. -/
structure Gathers (front : List LocalFile) (name : CompositeBinlogName) (inner : List Processed) (session : Session)
    (entries : List EventEntry) : Prop where
  filed : Filed session (front ++ [⟨name,entries⟩])
  expects : session.context.expectInfoOnlyPreambleEvents = false
  data : entries.map EventEntry.data = inner.map fun step => step.event.portion
  marks : entries.map EventEntry.atTransactionBoundary = inner.map fun step => step.after.context.isAtTransactionBoundary
  ended : (∃ last ∈ inner.getLast?, last.event.IsTerminator) → session.storage.isBinlogOpen = false

theorem Gathers.run {name : CompositeBinlogName} (gathers : Gathers front name [] start []) {inner : List Processed}
    (processes : Processes start inner session) (within : ∀ step ∈ inner, ¬ step.event.IsArtificialRotate) :
    ∃ entries, Gathers front name inner session entries := by
  induction processes with
  | stay => exact ⟨[],gathers⟩
  | aged before ih =>
    obtain ⟨entries,gathers⟩ := ih within
    exact ⟨entries,gathers.filed.aged,gathers.expects,gathers.data,gathers.marks,gathers.ended⟩
  | @event inner m session event before sound processed ih =>
    rw [List.forall_mem_append, List.forall_mem_singleton] at within
    obtain ⟨entries,gathers⟩ := ih within.1
    obtain ⟨infoOnly,files,step,filing,filed⟩ := gathers.filed.step sound processed
    have expects := (step.expectInfoOnlyPreambleEvents within.2).trans gathers.expects
    have gathered : ∀ nonempty, Filed session (LocalFile.onLast (· ++ [entryFor event session.context nonempty])
        (front ++ [⟨name,entries⟩])) → Gathers front name (inner ++ [⟨m,event,session⟩]) session
          (entries ++ [entryFor event session.context nonempty]) := by
      intro nonempty filed
      rw [LocalFile.onLast_concat] at filed
      refine ⟨filed,expects,by simp [gathers.data,entryFor],by simp [gathers.marks,entryFor],?_⟩
      rintro ⟨last,member,terminator⟩
      obtain rfl : ⟨m,event,session⟩ = last := by simpa using member
      obtain ⟨-,-,-,-,closed,-⟩ := gathers.filed.joined.terminated sound terminator processed
      exact closed
    cases filing with
    | rotated name rotate named => exact absurd rotate within.2
    | passed inner =>
      -- nothing is passed over where the preamble is not for information only
      by_cases preamble : event.getTypeCode = .formatDescription ∨ event.getTypeCode = .previousGtidsLog
      · cases (step.preamble preamble).trans gathers.expects
      · cases step.written inner preamble
    | written inner nonempty fits => exact ⟨_,gathered nonempty filed⟩
    | ended last nonempty => exact ⟨_,gathered nonempty filed⟩

/-- A file that is started by an artificial ROTATE. -/
theorem Gathers.rotated {rotate : Processed} (filed : Filed start files) (processes : Processes start [rotate] session)
    (artificial : rotate.event.IsArtificialRotate) {name : CompositeBinlogName}
    (named : name.str = rotate.event.getBodyRaw) (new : name ≠ rotate.before.storage.getCurrentBinlogName) :
    Gathers (LocalFile.onLast wholeTransactions files) name [] session [] := by
  obtain ⟨⟨filed,-⟩,sound,processed,rest⟩ := processes.single filed
  obtain ⟨after,expects⟩ := filed.rotates sound processed artificial named new
  obtain ⟨after,-,context⟩ := rest.idle after
  exact ⟨after,context ▸ expects,rfl,rfl,by simp⟩

/-- The file that is named has been closed: an artificial ROTATE that names another one has come, or its last event
    was the last one so far. -/
def EndsFile (name : CompositeBinlogName) (inner after : List Processed) : Prop :=
  (∃ next rest, after = next :: rest ∧ next.event.IsArtificialRotate ∧ next.event.getBodyRaw ≠ name.str) ∨
    after = [] ∧ ∃ last ∈ inner.getLast?, last.event.IsTerminator

/-- A file that has been closed is stored with its whole transactions. -/
theorem Gathers.closed {name : CompositeBinlogName} {inner after : List Processed} {entries : List EventEntry}
    {between : Session} (gathers : Gathers front name inner between entries) (ends : EndsFile name inner after)
    (processes : Processes between after session) :
    session.storage.backend.objects.find? name.str =
      some (magicBinlogPayload ++ bytesOf (wholeTransactions entries)) := by
  rcases ends with ⟨next,rest,rfl,artificial,other⟩ | ⟨rfl,last⟩
  · have parts : Processes between ([next] ++ rest) session := processes
    obtain ⟨between,first,processes⟩ := parts.split
    obtain ⟨⟨filed,-⟩,sound,processed,idle⟩ := first.single gathers.filed
    obtain ⟨infoOnly,files,-,filing,after⟩ := filed.step sound processed
    obtain ⟨after,-⟩ := idle.idle after
    have current : next.before.storage.getCurrentBinlogName = name := by
      rw [filed.holds.getCurrentBinlogName, List.getLast?_concat]
      rfl
    cases filing with
    | rotated name' rotate named =>
      rw [current, if_neg (fun same => other (named.symm.trans (congrArg CompositeBinlogName.str same))),
        LocalFile.onLast_concat] at after
      obtain ⟨back,more,filed⟩ := after.keeps (by simp) processes
      obtain ⟨rest,last,rfl⟩ := (List.eq_nil_or_concat' back).resolve_left more
      rw [← List.append_assoc] at filed
      exact filed.holds.stored.1 ⟨name,wholeTransactions entries⟩ (by simp)
    | passed inner => exact absurd artificial.code inner.1
    | written inner nonempty fits => exact absurd artificial.code inner.1
    | ended last nonempty => cases artificial.artificial.symm.trans last.artificial
  · obtain ⟨filed,storage,-⟩ := processes.idle gathers.filed
    have closed : session.storage.isBinlogOpen = false := by
      rw [storage]
      exact gathers.ended last
    have whole := filed.holds.whole closed
    have same : wholeTransactions entries = entries := by simpa using whole
    obtain ⟨-,-,kept,-,-,content,all⟩ := filed.holds.stored
    obtain rfl : kept = entries := all closed
    rw [same]
    exact content

omit [Externals] in
/-- Events are dropped from the end of a file unless it ends with a transaction. -/
theorem bytesOf_wholeTransactions (entries : List EventEntry) :
    bytesOf (wholeTransactions entries) = bytesOf entries ↔ EndsMarked EventEntry.atTransactionBoundary entries := by
  constructor
  · intro same
    obtain ⟨dropped,split⟩ := wholeTransactions_isPrefix entries
    have nothing : bytesOf dropped = [] := by
      conv_rhs at same => rw [← split, bytesOf_append]
      exact List.self_eq_append_right.mp same
    obtain rfl := bytesOf_eq_nil nothing
    rw [List.append_nil] at split
    intro last member
    have kept := List.rdropWhile_eq_self_iff.mp split (List.ne_nil_of_mem (List.mem_of_getLast? member))
    rw [List.getLast_of_mem_getLast? member] at kept
    simpa using kept
  · intro marked
    have same := marked.rdropWhile_append []
    rw [List.append_nil, List.rdropWhile_nil, List.append_nil] at same
    exact congrArg bytesOf same

/-- What is stored for a file that has been closed is what has come between the artificial ROTATE that named it and the
    next one exactly if that ends with a transaction. -/
theorem closed_file_content_iff {admits : Visit → Prop} {s : Storage} (lives : Lives admits s)
    {config : Config} {serverVersion : Nat} {gtidPurged : Bytes} {clock calendar : Nat → Nat} {point : RestartPoint}
    (proper : ∀ gtids, GtidSet.ofText gtidPurged = .ok gtids → gtids.Valid)
    (connected : connect config serverVersion gtidPurged clock calendar s = .ok (point,start))
    {before inner after : List Processed} {rotate : Processed}
    (processes : Processes start (before ++ rotate :: (inner ++ after)) session)
    (artificial : rotate.event.IsArtificialRotate) {name : CompositeBinlogName}
    (named : name.str = rotate.event.getBodyRaw) (new : name ≠ rotate.before.storage.getCurrentBinlogName)
    (within : ∀ step ∈ inner, ¬ step.event.IsArtificialRotate) (ends : EndsFile name inner after) :
    session.storage.backend.objects.find? name.str =
        some (magicBinlogPayload ++ (inner.map fun step => step.event.portion).flatten) ↔
      ∀ last ∈ inner.getLast?, last.after.context.isAtTransactionBoundary = true := by
  obtain ⟨files,holds,events⟩ := lives.holds
  obtain ⟨first,earlier,later⟩ := processes.split
  obtain ⟨files,filed⟩ := (Filed.connect holds events proper connected).run earlier
  have parts : Processes first ([rotate] ++ (inner ++ after)) session := later
  obtain ⟨second,enter,later⟩ := parts.split
  obtain ⟨third,middle,rest⟩ := later.split
  obtain ⟨entries,gathers⟩ := (Gathers.rotated filed enter artificial named new).run middle within
  have bytes : (inner.map fun step => step.event.portion).flatten = bytesOf entries := by
    rw [← gathers.data, bytesOf, List.flatMap_def]
  rw [gathers.closed ends rest, bytes, Option.some_inj, List.append_cancel_left_eq, bytesOf_wholeTransactions, EndsMarked]
  -- the marks of the events are those of the reader
  have marks := congrArg List.getLast? gathers.marks
  rw [List.getLast?_map, List.getLast?_map] at marks
  cases last : entries.getLast? <;> cases received : inner.getLast? <;> simp_all

/-- Where the reader is in a file: behind its preamble exactly if there has been another event. No event of the preamble
    ends a transaction. -/
structure Placed (inner : List Processed) (session : Session) : Prop where
  state : (∀ step ∈ inner, isPreamble step.event = true) ↔
    session.context.state ≠ .anyOtherExpected ∧ session.context.state ≠ .rotateArtificialExpected
  unmarked : ∀ step ∈ inner, isPreamble step.event = true → step.after.context.isAtTransactionBoundary = false
  last : ∀ step ∈ inner.getLast?, step.after.context = session.context

omit [Externals] in
/-- An event behind the preamble of a file, or one of it. -/
theorem isPreamble_step {context context' : ReaderContext} {event : EventView} {infoOnly : Bool}
    (step : ReaderContext.Step context event infoOnly context') (inner : ¬ event.IsArtificialRotate) :
    if isPreamble event = true then
      (context.state ≠ .anyOtherExpected ∧ context.state ≠ .rotateArtificialExpected) ∧
        context'.state ≠ .anyOtherExpected ∧ context'.state ≠ .rotateArtificialExpected
    else context'.state = .anyOtherExpected ∨ context'.state = .rotateArtificialExpected := by
  cases step with
  | artificialRotate start rotate => exact absurd rotate inner
  | formatDescription layout start code =>
    rw [if_pos (by simp [isPreamble,code])]
    refine ⟨by simp [start],?_⟩
    show context.describedState ≠ _ ∧ context.describedState ≠ _
    unfold ReaderContext.describedState
    split <;> simp
  | previousGtids start code =>
    rw [if_pos (by simp [isPreamble,code])]
    exact ⟨by simp [start],by simp⟩
  | gtid gtid sequenceNumber length start code =>
    have other : ¬ isPreamble event = true := by
      intro preamble
      simp only [isPreamble, Bool.or_eq_true, decide_eq_true_eq] at preamble
      rcases preamble with same | same <;> simp [same,CodeType.isGtid] at code
    rw [if_neg other]
    exact .inl rfl
  | other start plain =>
    rw [if_neg (by simp [isPreamble,plain.2.2.2.1,plain.2.2.2.2.1])]
    exact .inl start
  | terminator start last =>
    have other : ¬ isPreamble event = true := by
      rcases last.code with same | same <;> simp [isPreamble,same]
    rw [if_neg other]
    exact .inr rfl

omit [Externals] in
/-- An artificial ROTATE is expected at the start, after a terminator and between two transactions. -/
theorem rotates_between {context context' : ReaderContext} {event : EventView} {infoOnly : Bool}
    (step : ReaderContext.Step context event infoOnly context') (artificial : event.IsArtificialRotate) :
    context.state = .rotateArtificialExpected ∨ context.Between := by
  cases step with
  | artificialRotate start => exact start
  | formatDescription layout start code => cases code.symm.trans artificial.code
  | previousGtids start code => cases code.symm.trans artificial.code
  | gtid gtid sequenceNumber length start code => simp [artificial.code,CodeType.isGtid] at code
  | other start plain => exact absurd artificial.code plain.2.1
  | terminator start last => cases artificial.artificial.symm.trans last.artificial

theorem Placed.rotated {rotate : Processed} (filed : Filed start files) (processes : Processes start [rotate] session)
    (artificial : rotate.event.IsArtificialRotate) : Placed [] session := by
  obtain ⟨⟨filed,-⟩,sound,processed,rest⟩ := processes.single filed
  obtain ⟨infoOnly,_,step,-,after⟩ := filed.step sound processed
  obtain ⟨-,-,context⟩ := rest.idle after
  refine ⟨iff_of_true (by simp) ?_,by simp,by simp⟩
  rw [context, (step.rotated artificial).1]
  simp

theorem Placed.run (placed : Placed [] start) (filed : Filed start files) {inner : List Processed}
    (processes : Processes start inner session) (within : ∀ step ∈ inner, ¬ step.event.IsArtificialRotate) :
    Placed inner session ∧ ∃ files', Filed session files' := by
  induction processes with
  | stay => exact ⟨placed,files,filed⟩
  | aged before ih =>
    obtain ⟨placed,files,filed⟩ := ih within
    exact ⟨⟨placed.state,placed.unmarked,placed.last⟩,files,filed.aged⟩
  | @event inner m session event before sound processed ih =>
    rw [List.forall_mem_append, List.forall_mem_singleton] at within
    obtain ⟨placed,files,filed⟩ := ih within.1
    obtain ⟨infoOnly,files,step,-,filed⟩ := filed.step sound processed
    have moves := isPreamble_step step within.2
    refine ⟨⟨?_,?_,by simp⟩,files,filed⟩
    · rw [List.forall_mem_append, List.forall_mem_singleton, placed.state]
      split at moves
      · rename_i preamble
        exact iff_of_true ⟨moves.1,preamble⟩ moves.2
      · rename_i other
        refine iff_of_false (fun both => other both.2) (fun both => ?_)
        exact moves.elim both.1 both.2
    · rw [List.forall_mem_append, List.forall_mem_singleton]
      refine ⟨placed.unmarked,fun preamble => ?_⟩
      rw [if_pos preamble] at moves
      simp [ReaderContext.isAtTransactionBoundary,moves.2.1,moves.2.2]

/-- When an artificial ROTATE comes behind the preamble of a file, a transaction or the file has just ended. -/
theorem Placed.ended {inner : List Processed} {next : Processed} (placed : Placed inner start) (filed : Filed start files)
    (behind : ¬ ∀ step ∈ inner, isPreamble step.event = true) (processes : Processes start [next] session)
    (artificial : next.event.IsArtificialRotate) : start.context.isAtTransactionBoundary = true := by
  rw [placed.state, not_and_or, not_not, not_not] at behind
  obtain ⟨⟨filed,-,same⟩,sound,processed,-⟩ := processes.single filed
  obtain ⟨infoOnly,_,step,-⟩ := filed.step sound processed
  rw [same] at step
  rcases rotates_between step artificial with ended | expected | ⟨inside,whole⟩
  · simp [ReaderContext.isAtTransactionBoundary,ended]
  · simp [expected] at behind
  · simp [ReaderContext.isAtTransactionBoundary,inside,whole]

end

section
attribute [local instance] FlatJson.externals

namespace Sample

/-- A file without transactions, and the artificial ROTATE that names the next one. -/
def unused : List EventView :=
  [rotate,description,previousGtids,⟨Events.Sample.artificialRotate (ascii "b.000002") 4,8,0⟩]

end Sample

/-- The preamble of a file that has nothing else is lost when the next file is started. -/
theorem closed_file_content_iff_unused : ∃ point session, ∃ rotate description previousGtids next : Processed,
    connect Sample.config 80400 [] (fun _ => 0) (fun _ => 0) Storage.Sample.emptyStorage = .ok (point,Sample.session) ∧
    Processes Sample.session [rotate,description,previousGtids,next] session ∧
    [rotate.event,description.event,previousGtids.event,next.event] = Sample.unused ∧
    session.storage.backend.objects.find? Sample.name.str ≠
      some (magicBinlogPayload ++ (description.event.portion ++ previousGtids.event.portion)) := by
  obtain ⟨point,connected⟩ : ∃ point, connect Sample.config 80400 [] (fun _ => 0) (fun _ => 0)
      Storage.Sample.emptyStorage = .ok (point,Sample.session) := ⟨_,rfl⟩
  have known : (Sample.follow Sample.unused Sample.session).map (fun found =>
      (found.1.head?.map fun step => step.before.storage.getCurrentBinlogName,
        found.1[2]?.map fun step => step.after.context.isAtTransactionBoundary)) = some (some .none,some false) := by
    decide +kernel
  cases followed : Sample.follow Sample.unused Sample.session with
  | none => simp [followed] at known
  | some found =>
    obtain ⟨steps,session⟩ := found
    obtain ⟨processes,events⟩ := Sample.follow_processes followed (by decide +kernel) .stay
    obtain ⟨rotate,description,previousGtids,next,rfl⟩ : ∃ a b c d, steps = [a,b,c,d] := by
      rw [← List.length_eq_four, ← List.length_map Processed.event, events]
      rfl
    obtain ⟨first,inside⟩ : rotate.before.storage.getCurrentBinlogName = .none ∧
        previousGtids.after.context.isAtTransactionBoundary = false := by simpa [followed] using known
    refine ⟨point,session,rotate,description,previousGtids,next,connected,processes,events,?_⟩
    simp only [Sample.unused, List.map_cons, List.map_nil, List.cons.injEq, and_true] at events
    obtain ⟨rotated,described,previous,changed⟩ := events
    intro content
    have boundary := (@closed_file_content_iff _ _ _ _ _ (Sample.emptyStorage_lives fun _ => True) _ _ _ _ _ _
      Sample.nothing_purged connected [] [description,previousGtids] [next] rotate processes
      (by rw [rotated]; decide +kernel) Sample.name (by rw [rotated]; decide +kernel) (by rw [first]; decide)
      (by
        rw [List.forall_mem_cons, List.forall_mem_singleton, described, previous]
        decide +kernel)
      (.inl ⟨next,[],rfl,by rw [changed]; decide +kernel,by rw [changed]; decide +kernel⟩)).mp (by simpa using content)
      previousGtids rfl
    cases inside.symm.trans boundary

end
end Session
end BinlogServer.App
