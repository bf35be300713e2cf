import BinlogServer.App.Numbering
import Mathlib.Data.Finset.Card
import Mathlib.Order.Interval.Finset.Nat

/-!
# Where the transactions of a local file come from

A source numbers the transactions of each of its files and says of each one what it depends on; those that the storage
already has it leaves out. In a local file the transactions are numbered anew, and a transaction goes back from its new
number as far as it did from its old one. So it forgets a dependency where more transactions have been left out than
there are numbers to spare.
-/

namespace BinlogServer.Store.Storage
open ByteString Util Gtids Events

/-- How many transactions have been started in the current file. -/
def heldTransactions (s : Storage) : Nat :=
  if s.isBinlogOpen then s.getLastTransactionSequenceNumber
  else (s.records.getLast?.map BinlogRecord.lastSequenceNumber).getD 0

theorem Holds.heldTransactions [Externals] {s : Storage} {front : List LocalFile} {file : LocalFile}
    (holds : Holds s (front ++ [file])) : s.heldTransactions = lastNumber 0 file.entries := by
  unfold Storage.heldTransactions
  split
  · rename_i opened
    exact holds.getLastTransactionSequenceNumber opened
  · rename_i closed
    obtain ⟨log,history,run,names,entries⟩ := holds
    have tracked := run.tracked
    have chronicled := run.chronicled
    cases log with
    | some log =>
      obtain ⟨-,record,stream,journal,journaled⟩ := tracked
      exact absurd (by simp [isBinlogOpen,Backend.isStreamOpen,journaled.opened]) closed
    | none =>
      rw [entries, List.map_append, List.map_singleton] at chronicled
      obtain ⟨record,last⟩ : ∃ record, s.records.getLast? = some record := by
        cases records : s.records.getLast? with
        | none => simp [List.getLast?_eq_none_iff.mp records] at names
        | some record => exact ⟨record,rfl⟩
      obtain ⟨known,current,split,-,described⟩ := last_file last chronicled
      obtain rfl := List.singleton_inj.mp (List.append_inj' split rfl).2
      rw [last]
      exact described.describes.lastSequenceNumber

end BinlogServer.Store.Storage

namespace BinlogServer.App
open ByteString Util Gtids Events Store
open Store.Storage (Holds)

/-- A transaction as the source has it: the file it is in, its number there, and the number of what it depends on. -/
structure Origin where
  file : Bytes
  sequenceNumber : Nat
  lastCommitted : Nat
deriving DecidableEq, Repr

namespace Origin

/-- Of two transactions the source has sent one after the other, the later one has to be committed after the earlier one:
    it is in a later file, or depends on the earlier one or on one after it. -/
def Precedes (a b : Origin) : Prop := a.file ≠ b.file ∨ a.sequenceNumber ≤ b.lastCommitted

instance (a b : Origin) : Decidable (a.Precedes b) := inferInstanceAs (Decidable (_ ∨ _))

/-- In each file of the source the numbers increase. -/
def Orderly (origins : List Origin) : Prop :=
  origins.Pairwise fun a b => a.file = b.file → a.sequenceNumber < b.sequenceNumber

instance (origins : List Origin) : Decidable (Orderly origins) :=
  inferInstanceAs (Decidable (List.Pairwise _ _))

/-- The last number in the file of `b` that is not after `a`. -/
def reach (a b : Origin) : Nat := if a.file = b.file then a.sequenceNumber else 0

/-- The numbers in the file of `b` that are after `a` and before `b`, and that no transaction in between has. -/
def leftOut (a : Origin) (between : List Origin) (b : Origin) : Finset Nat :=
  Finset.Ioo (a.reach b) b.sequenceNumber \ ((between.filter (·.file = b.file)).map sequenceNumber).toFinset

/-- How many may be left out: as many as there are numbers after `a` that `b` depends on, and transactions of other files
    in between. -/
def spared (a : Origin) (between : List Origin) (b : Origin) : Nat :=
  b.lastCommitted - a.reach b + (between.filter (·.file ≠ b.file)).length

section
variable {a b : Origin} {between : List Origin}

theorem reach_le (precedes : a.Precedes b) : a.reach b ≤ b.lastCommitted := by
  unfold reach
  split
  · rename_i same
    exact precedes.resolve_left (not_not.mpr same)
  · exact Nat.zero_le _

/-- The transactions in between that are in the file of `b` have numbers of their own. -/
theorem card_leftOut (orderly : Orderly (a :: (between ++ [b]))) (positive : ∀ origin ∈ between, 0 < origin.sequenceNumber) :
    (a.leftOut between b).card + (between.filter (·.file = b.file)).length = b.sequenceNumber - a.reach b - 1 := by
  obtain ⟨after,rest⟩ := List.pairwise_cons.mp orderly
  obtain ⟨inner,-,before⟩ := List.pairwise_append.mp rest
  have distinct : ((between.filter (·.file = b.file)).map sequenceNumber).Nodup := by
    rw [List.Nodup, List.pairwise_map]
    refine (inner.filter _).imp_of_mem fun {x y} left right increases => ?_
    have first : x.file = b.file := by simpa using (List.mem_filter.mp left).2
    have second : y.file = b.file := by simpa using (List.mem_filter.mp right).2
    exact (increases (first.trans second.symm)).ne
  have inside : ((between.filter (·.file = b.file)).map sequenceNumber).toFinset ⊆ Finset.Ioo (a.reach b) b.sequenceNumber := by
    intro number member
    obtain ⟨origin,listed,rfl⟩ := List.mem_map.mp (List.mem_toFinset.mp member)
    obtain ⟨known,same⟩ := List.mem_filter.mp listed
    have same : origin.file = b.file := by simpa using same
    rw [Finset.mem_Ioo]
    constructor
    · unfold reach
      split
      · rename_i here
        exact after origin (List.mem_append_left _ known) (here.trans same.symm)
      · exact positive origin known
    · exact before origin known b (List.mem_singleton_self b) same
  have few := Finset.card_le_card inside
  rw [leftOut, Finset.card_sdiff_of_subset inside]
  rw [List.toFinset_card_of_nodup distinct, List.length_map, Nat.card_Ioo] at few ⊢
  omega

/-- Not too many are left out exactly if `b` goes back to `a` in the local file. -/
theorem card_leftOut_le_iff (orderly : Orderly (a :: (between ++ [b])))
    (positive : ∀ origin ∈ between, 0 < origin.sequenceNumber) (committed : b.lastCommitted < b.sequenceNumber)
    (precedes : a.Precedes b) :
    (a.leftOut between b).card ≤ a.spared between b ↔ b.sequenceNumber - b.lastCommitted ≤ between.length + 1 := by
  have count := card_leftOut orderly positive
  have near := reach_le precedes
  have all := between.length_eq_length_filter_add (·.file = b.file)
  have others : between.filter (fun origin => !decide (origin.file = b.file)) = between.filter (·.file ≠ b.file) := by
    simp
  rw [others] at all
  unfold spared
  omega

end
end Origin

theorem exists_concat_of_forall₂ {α β : Type} {R : α → β → Prop} {list : List α} {front : List β} {last : β}
    (all : List.Forall₂ R list (front ++ [last])) :
    ∃ before current, list = before ++ [current] ∧ List.Forall₂ R before front ∧ R current last := by
  have earlier := List.forall₂_take_append list front [last] all
  have later := List.forall₂_drop_append list front [last] all
  have whole := List.take_append_drop front.length list
  generalize list.drop front.length = tail at later whole
  cases later with
  | @cons current _ _ _ related nothing =>
    cases nothing
    exact ⟨_,current,whole.symm,earlier,related⟩

/-- Transactions from the source have got these numbers in a local file. -/
def Renumbered (origins : List Origin) (numbers : List (Nat × Nat)) : Prop :=
  origins.mapIdx (fun index origin =>
    Rewriter.fixSequenceNumberAndLastCommitted index origin.sequenceNumber origin.lastCommitted) = numbers.map .ok

namespace Renumbered
variable {origins : List Origin} {numbers : List (Nat × Nat)}

theorem nil : Renumbered [] [] := rfl

theorem length_eq (renumbered : Renumbered origins numbers) : origins.length = numbers.length := by
  simpa using congrArg List.length renumbered

theorem concat (renumbered : Renumbered origins numbers) {origin : Origin} {next : Nat × Nat}
    (fixed : Rewriter.fixSequenceNumberAndLastCommitted numbers.length origin.sequenceNumber origin.lastCommitted = .ok next) :
    Renumbered (origins ++ [origin]) (numbers ++ [next]) := by
  unfold Renumbered at renumbered ⊢
  rw [List.mapIdx_concat, renumbered, Renumbered.length_eq renumbered, fixed, List.map_append, List.map_singleton]

theorem get (renumbered : Renumbered origins numbers) {index : Nat} {origin : Origin} {number : Nat × Nat}
    (known : origins[index]? = some origin) (listed : numbers[index]? = some number) :
    Rewriter.fixSequenceNumberAndLastCommitted index origin.sequenceNumber origin.lastCommitted = .ok number := by
  have same := congrArg (·[index]?) renumbered
  simpa [known,listed] using same

theorem take (renumbered : Renumbered origins numbers) (count : Nat) :
    Renumbered (origins.take count) (numbers.take count) := by
  apply List.ext_getElem?
  intro index
  have same := congrArg (·[index]?) renumbered
  simp only [List.getElem?_mapIdx, List.getElem?_map] at same ⊢
  by_cases inside : index < count
  · rwa [List.getElem?_take_of_lt inside, List.getElem?_take_of_lt inside]
  · simp [inside]

/-- A transaction of the source depends on one before it, or it could not have been renumbered. -/
theorem committed (renumbered : Renumbered origins numbers) : ∀ origin ∈ origins, origin.lastCommitted < origin.sequenceNumber := by
  intro origin member
  obtain ⟨index,inside,rfl⟩ := List.mem_iff_getElem.mp member
  have known := List.getElem?_eq_getElem inside
  have listed := List.getElem?_eq_getElem (renumbered.length_eq ▸ inside)
  have fixed := renumbered.get known listed
  simp only [Rewriter.fixSequenceNumberAndLastCommitted, bind_eq_ok, raiseIf_eq_ok] at fixed
  obtain ⟨_,ordered,-⟩ := fixed
  omega

/-- The numbers count the transactions. -/
theorem fst_of_getElem? (counted : numbers.map Prod.fst = List.range' 1 numbers.length) {index : Nat} {number : Nat × Nat}
    (listed : numbers[index]? = some number) : number.1 = index + 1 := by
  have same := congrArg (·[index]?) counted
  have inside := (List.getElem?_eq_some_iff.mp listed).1
  simp only [List.getElem?_map, listed, Option.map_some, List.getElem?_range' inside, Option.some.injEq] at same
  omega

/-- The number of a transaction `b` in the local file goes back to that of a transaction `a` before it exactly if not too
    many have been left out in between, or `a` is the first one of the file. -/
theorem keeps_iff (renumbered : Renumbered origins numbers) (counted : numbers.map Prod.fst = List.range' 1 numbers.length)
    (orderly : Origin.Orderly origins) {front between rest : List Origin} {a b : Origin}
    (split : origins = front ++ a :: (between ++ b :: rest)) {m n : Nat × Nat} (first : numbers[front.length]? = some m)
    (second : numbers[front.length + between.length + 1]? = some n) (precedes : a.Precedes b) :
    m.1 ≤ n.2 ↔ front = [] ∨ (a.leftOut between b).card ≤ a.spared between b := by
  have known : origins[front.length + between.length + 1]? = some b := by
    rw [split, List.getElem?_append_right (by omega), show front.length + between.length + 1 - front.length =
      between.length + 1 by omega, List.getElem?_cons_succ, List.getElem?_append_right le_rfl, Nat.sub_self]
    rfl
  have fixed := renumbered.get known second
  -- the number that has been stored has not been wrapped
  have small : front.length + between.length + 1 + 1 < 2 ^ 64 := by
    have wrapped := fst_of_getElem? counted second
    simp only [Rewriter.fixSequenceNumberAndLastCommitted, bind_eq_ok, pure_eq_ok] at fixed
    obtain ⟨-,-,rfl⟩ := fixed
    have below := Nat.mod_lt (front.length + between.length + 1 + 1) (show 0 < 2 ^ 64 by decide)
    omega
  obtain ⟨next,-,-,distance⟩ := Rewriter.fixSequenceNumberAndLastCommitted_spec small (by rw [Prod.mk.eta]; exact fixed)
  have within : Origin.Orderly (a :: (between ++ [b])) := by
    rw [split, show front ++ a :: (between ++ b :: rest) = front ++ (a :: (between ++ [b]) ++ rest) by simp] at orderly
    exact (List.pairwise_append.mp (List.pairwise_append.mp orderly).2.1).1
  have positive : ∀ origin ∈ between, 0 < origin.sequenceNumber := fun origin member =>
    Nat.zero_lt_of_lt (renumbered.committed origin (by rw [split]; simp [member]))
  rw [fst_of_getElem? counted first, distance (front.length + 1) (Nat.succ_pos _) (by omega), next,
    Origin.card_leftOut_le_iff within positive (renumbered.committed b (by rw [split]; simp)) precedes]
  have empty : front = [] ↔ front.length = 0 := List.length_eq_zero_iff.symm
  rw [empty]
  omega

end Renumbered

/-- What is known beside a run: the file that the source is in, and for each local file where its transactions come from. -/
structure Ledger where
  source : Bytes := []
  files : List (List Origin) := []
deriving DecidableEq, Repr

namespace Ledger

/-- There are so many local files. -/
def grow (count : Nat) (ledger : Ledger) : Ledger :=
  { ledger with files := ledger.files ++ List.replicate (count - ledger.files.length) [] }

def onLast (f : List Origin → List Origin) (ledger : Ledger) : Ledger :=
  { ledger with files := ledger.files.dropLast ++ ledger.files.getLast?.toList.map f }

theorem files_onLast {ledger : Ledger} {front : List (List Origin)} {last : List Origin}
    (files : ledger.files = front ++ [last]) (f : List Origin → List Origin) : (ledger.onLast f).files = front ++ [f last] := by
  simp [onLast,files]

/-- An event of the source: a ROTATE names the file that follows, and the first event of a transaction has the numbers of
    the transaction in its file. -/
def receive (event : EventView) (ledger : Ledger) : Ledger :=
  if event.getTypeCode = .rotate then { ledger with source := event.getBodyRaw }
  else if event.getTypeCode.isGtid = true then
    match event.numbers with
    | .ok numbers => ledger.onLast (· ++ [⟨ledger.source,numbers.1,numbers.2⟩])
    | .error _ => ledger
  else ledger

/-- The packets of a session. -/
def follow [Externals] (config : Config) : List Bytes → Session → Ledger → Ledger
  | [],_,ledger => ledger
  | packet :: rest,session,ledger =>
    match EventView.make session.context packet.tail with
    | .error _ => ledger
    | .ok event =>
      match Session.receivePacket config packet session with
      | .error _ _ => ledger
      | .ok _ next => follow config rest next ((ledger.grow next.storage.records.length).receive event)

/-- A session or a process has ended, and the current file has the transactions that are left. -/
def settle (s : Storage) (ledger : Ledger) : Ledger := ledger.onLast (·.take s.heldTransactions)

end Ledger

namespace Session

/-- The storages of the processes that have run in the rewrite mode, and what the source has sent to them. -/
inductive Sourced [Externals] : Storage → Ledger → Prop where
  | start {type : BackendType} {mode : ReplicationMode} {checkpoint : Checkpoint} {u : Unit} {s : Storage}
      (constructed : Storage.construct .streaming mode checkpoint { type := type, objects := .empty } = .ok u s) :
      Sourced s {}
  | session {s t : Storage} {ledger : Ledger} (sourced : Sourced s ledger) {config : Config} {rewrite : RewriteConfig}
      {serverVersion : Nat} {gtidPurged : Bytes} {clock calendar : Nat → Nat} {point : RestartPoint} {packets : List Bytes}
      {session session' : Session} {endOfStream : Bool} {v : Unit} (mode : config.rewrite = some rewrite)
      (proper : ∀ gtids, GtidSet.ofText gtidPurged = .ok gtids → gtids.Valid)
      (connected : connect config serverVersion gtidPurged clock calendar s = .ok (point,session))
      (received : receivePackets config packets session = .ok () session')
      (disconnected : disconnect endOfStream session'.storage = .ok v t) :
      Sourced t ((ledger.follow config packets session).settle t)
  | restart {s t : Storage} {ledger : Ledger} (sourced : Sourced s ledger) {mode : ReplicationMode} {checkpoint : Checkpoint}
      {u : Unit} (constructed : Storage.construct .streaming mode checkpoint s.destroy = .ok u t) :
      Sourced t (ledger.settle t)

section
variable [Externals] {s t : Storage} {ledger : Ledger} {session session' : Session} {files : List LocalFile}
  {config : Config} {rewrite : RewriteConfig} {u : Unit}

/-- Every run has its ledger. -/
theorem Relayed.sourced {admits : Config → Session → List Bytes → Prop} (relayed : Relayed admits s) :
    ∃ ledger, Sourced s ledger := by
  induction relayed with
  | start constructed => exact ⟨_,.start constructed⟩
  | session _ mode _ proper connected received disconnected ih =>
    obtain ⟨ledger,sourced⟩ := ih
    exact ⟨_,sourced.session mode proper connected received disconnected⟩
  | restart _ constructed ih =>
    obtain ⟨ledger,sourced⟩ := ih
    exact ⟨_,sourced.restart constructed⟩

/-- The transactions in the files are numbered, and come from where the ledger says. -/
structure Tracing (session : Session) (files : List LocalFile) (ledger : Ledger) : Prop extends Counting session files where
  origins : List.Forall₂ Renumbered ledger.files (tally files)

omit [Externals] in
theorem Ledger.files_receive (event : EventView) (other : event.getTypeCode.isGtid = false) (ledger : Ledger) :
    (ledger.receive event).files = ledger.files := by
  unfold Ledger.receive
  split
  · rfl
  · rw [if_neg (by simp [other])]

omit [Externals] in
/-- The ledger gets a place for a local file that has been started. -/
theorem origins_grow {files' : List LocalFile} (origins : List.Forall₂ Renumbered ledger.files (tally files))
    (grown : tally files' = tally files ∨ tally files' = tally files ++ [[]]) :
    List.Forall₂ Renumbered (ledger.grow files'.length).files (tally files') := by
  have count : ledger.files.length = (tally files).length := origins.length_eq
  have length : files'.length = (tally files').length := by simp [tally]
  rw [Ledger.grow, length]
  rcases grown with same | more
  · rw [same, count, Nat.sub_self]
    simpa using origins
  · rw [more, List.length_append, count, Nat.add_sub_cancel_left]
    exact List.rel_append origins (.cons .nil .nil)

omit [Externals] in
/-- A transaction goes to the end of the last local file, with the number it has got there. -/
theorem origins_receive {event : EventView} {known : List (List (Nat × Nat))} {numbers : List (Nat × Nat)}
    {remote number : Nat × Nat} (origins : List.Forall₂ Renumbered ledger.files (known ++ [numbers]))
    (code : event.getTypeCode.isGtid = true) (read : event.numbers = .ok remote)
    (fixed : Rewriter.fixSequenceNumberAndLastCommitted numbers.length remote.1 remote.2 = .ok number) :
    List.Forall₂ Renumbered (ledger.receive event).files (known ++ [numbers ++ [number]]) := by
  obtain ⟨front,last,split,earlier,current⟩ := exists_concat_of_forall₂ origins
  have inner : event.getTypeCode ≠ .rotate := by
    intro rotate
    simp [rotate,CodeType.isGtid] at code
  rw [Ledger.receive, if_neg inner, if_pos code, read, Ledger.files_onLast split]
  exact List.rel_append earlier (.cons (current.concat fixed) .nil)

/-- A packet is received. -/
theorem Tracing.packet (tracing : Tracing session files ledger) (mode : config.rewrite = some rewrite) {packet : Bytes}
    {event : EventView} (view : EventView.make session.context packet.tail = .ok event)
    (run : receivePacket config packet session = .ok u session') :
    ∃ files', Tracing session' files' ((ledger.grow session'.storage.records.length).receive event) := by
  obtain ⟨other,seen,which⟩ := tracing.toCounting.packet mode run
  obtain rfl := Except.ok.inj (seen.symm.trans view)
  rcases which with ⟨skipped,rfl⟩ | ⟨kept,m,files',rewritten,counting,grown,appended⟩
  · refine ⟨files,tracing.toCounting,?_⟩
    have plain : other.getTypeCode.isGtid = false := by
      by_contra first
      rw [isGtid_not_skipped (by simpa using first)] at skipped
      cases skipped
    rw [Ledger.files_receive other plain, tracing.holds.length_records]
    exact origins_grow tracing.origins (.inl rfl)
  · obtain ⟨⟨front,file,rfl⟩,nonempty,-,after,numbers,others⟩ := appended
    have before := origins_grow tracing.origins grown
    have length := after.holds.length_records
    rw [LocalFile.onLast_concat] at after length
    have same : session'.storage.records.length = (front ++ [file]).length := by simpa using length
    refine ⟨_,after,?_⟩
    rw [same]
    cases code : other.getTypeCode.isGtid with
    | false =>
      rw [Ledger.files_receive other code]
      have unchanged : tally (LocalFile.onLast (· ++ [entryFor rewritten session'.context nonempty]) (front ++ [file])) =
          tally (front ++ [file]) := tally_onLast _ (others code)
      rw [LocalFile.onLast_concat] at unchanged
      rw [unchanged]
      exact before
    | true =>
      obtain ⟨remote,number,read,stored,fixed⟩ := numbers code
      have count : lastNumber 0 (currentEntries (front ++ [file])) = file.numbers.length := by
        rw [currentEntries_concat]
        exact (counting.counted file (by simp)).length_numbersOf.symm
      have more : LocalFile.numbers ⟨file.name,file.entries ++ [entryFor rewritten session'.context nonempty]⟩ =
          file.numbers ++ [number] := by
        simp [LocalFile.numbers,numbersOf,entryFor,stored]
      rw [count] at fixed
      rw [tally_concat] at before ⊢
      rw [more]
      exact origins_receive before code read fixed

theorem Tracing.run (tracing : Tracing session files ledger) (mode : config.rewrite = some rewrite) {packets : List Bytes}
    (run : receivePackets config packets session = .ok u session') :
    ∃ files', Tracing session' files' (ledger.follow config packets session) := by
  induction packets generalizing session files ledger with
  | nil =>
    obtain ⟨-,rfl⟩ := Action.pure_eq_ok.mp run
    exact ⟨files,tracing⟩
  | cons packet packets ih =>
    obtain ⟨_,m,received,rest⟩ := Action.bind_eq_ok.mp run
    obtain ⟨event,view,-⟩ := receivePacket_ok received
    obtain ⟨files',tracing⟩ := tracing.packet mode view received
    rw [Ledger.follow, view]
    simp only [received]
    exact ih tracing rest

/-- What is left of the last file has the first ones of its numbers. -/
theorem origins_settle (holds : Holds t files) (counted : ∀ file ∈ files, Counted file.entries) {held : List LocalFile}
    {f : List EventEntry → List EventEntry} (part : ∀ entries, f entries <+: entries) (cut : files = LocalFile.onLast f held)
    (origins : List.Forall₂ Renumbered ledger.files (tally held)) :
    List.Forall₂ Renumbered (ledger.settle t).files (tally files) := by
  subst cut
  induction held using List.reverseRecOn with
  | nil =>
    have none : ledger.files = [] := by simpa [tally] using origins
    simp [Ledger.settle,Ledger.onLast,none,tally]
  | append_singleton front file =>
    rw [tally_concat] at origins
    obtain ⟨known,last,split,earlier,current⟩ := exists_concat_of_forall₂ origins
    rw [LocalFile.onLast_concat] at holds counted ⊢
    obtain ⟨rest,whole⟩ := part file.entries
    have parts : file.numbers = LocalFile.numbers ⟨file.name,f file.entries⟩ ++ numbersOf (rest.map EventEntry.data) := by
      simp only [LocalFile.numbers, numbersOf]
      rw [← List.filterMap_append, ← List.map_append, whole]
    have taken : LocalFile.numbers ⟨file.name,f file.entries⟩ = file.numbers.take t.heldTransactions := by
      have count := (counted ⟨file.name,f file.entries⟩ (by simp)).length_numbersOf
      rw [holds.heldTransactions, ← count, parts]
      exact List.take_left.symm
    rw [tally_concat, taken, Ledger.settle, Ledger.files_onLast split]
    exact List.rel_append earlier (.cons (current.take _) .nil)

/-- In every run the ledger says where the transactions in the files come from. -/
theorem Sourced.traced (sourced : Sourced s ledger) : ∃ files, Holds s files ∧
    (∀ file ∈ files, AreEvents file.entries ∧ Counted file.entries) ∧ List.Forall₂ Renumbered ledger.files (tally files) := by
  have both : ∀ front entries, front <+: entries → AreEvents entries ∧ Counted entries → AreEvents front ∧ Counted front :=
    fun front entries part all => ⟨AreEvents.of_isPrefix front entries part all.1,Counted.of_isPrefix front entries part all.2⟩
  induction sourced with
  | start constructed => exact ⟨[],Holds.start constructed,by simp,.nil⟩
  | session sourced mode proper connected received disconnected ih =>
    obtain ⟨files,holds,all,origins⟩ := ih
    have filed := Filed.connect holds (fun file member => (all file member).1) proper connected
    have start : Tracing _ files _ := ⟨⟨filed,fun file member => (all file member).2,.inl (by
      obtain ⟨t,-,rfl⟩ := connect_ok connected
      rfl)⟩,origins⟩
    obtain ⟨held,tracing⟩ := start.run mode received
    have after := disconnect_holds tracing.holds disconnected
    have next : ∀ file ∈ held, AreEvents file.entries ∧ Counted file.entries :=
      fun file member => ⟨tracing.events file member,tracing.counted file member⟩
    split at after
    · have same : held = LocalFile.onLast id held := (LocalFile.onLast_eq_self (fun _ => rfl) held).symm
      exact ⟨held,after,next,origins_settle after tracing.counted (fun _ => List.prefix_rfl) same tracing.origins⟩
    · have left := LocalFile.forall_onLast both wholeTransactions_isPrefix next
      exact ⟨_,after,left,origins_settle after (fun file member => (left file member).2) wholeTransactions_isPrefix rfl
        tracing.origins⟩
  | restart sourced constructed ih =>
    obtain ⟨files,holds,all,origins⟩ := ih
    obtain ⟨size,after⟩ := holds.restart constructed
    have left := LocalFile.forall_onLast both (eventsWithin_isPrefix size) all
    exact ⟨_,after,left,origins_settle after (fun file member => (left file member).2) (eventsWithin_isPrefix size) rfl origins⟩

/-- In the rewrite mode, whatever sessions, lost connections, terminations and restarts there have been: let `a` and `b` be
    transactions of one local file, `a` before `b`, that have come from a source whose numbers increase in each of its
    files. If `b` has to be committed after `a`, its numbers in the local file say so exactly if no more transactions of
    the source have been left out in between than there are to spare, or `a` is the first one of the file. Where none has
    been left out they always do. -/
theorem dependency_kept_iff (sourced : Sourced s ledger) : ∃ files, Holds s files ∧
    (∀ file ∈ files, AreEvents file.entries) ∧ List.Forall₂ (fun file origins => file.numbers.length = origins.length ∧
      (Origin.Orderly origins → ∀ front a between b rest m n, origins = front ++ a :: (between ++ b :: rest) →
        file.numbers[front.length]? = some m → file.numbers[front.length + between.length + 1]? = some n →
        ((a.Precedes b → m.1 ≤ n.2) ↔
          (a.Precedes b → front = [] ∨ (a.leftOut between b).card ≤ a.spared between b)) ∧
        (a.leftOut between b = ∅ → a.Precedes b → m.1 ≤ n.2))) files ledger.files := by
  obtain ⟨files,holds,all,origins⟩ := sourced.traced
  refine ⟨files,holds,fun file member => (all file member).1,?_⟩
  have traced := List.forall₂_map_left_iff.mp origins.flip
  refine ((List.forall₂_and_left _ _).mpr ⟨fun file member => (all file member).2,traced⟩).imp fun file origins related => ?_
  obtain ⟨counted,renumbered⟩ := related
  refine ⟨(Renumbered.length_eq renumbered).symm,fun orderly front a between b rest m n split first second => ?_⟩
  have keeps := Renumbered.keeps_iff renumbered counted.numbered.sequence orderly split first second
  constructor
  · constructor
    · intro kept precedes
      exact (keeps precedes).mp (kept precedes)
    · intro few precedes
      exact (keeps precedes).mpr (few precedes)
  · intro none precedes
    apply (keeps precedes).mpr
    rw [none, Finset.card_empty]
    exact .inr (Nat.zero_le _)

end

namespace Sample
attribute [local instance] FlatJson.externals

/-- A session over a storage, which ends with its connection. -/
def visit (packets : List Bytes) (known : Storage × Ledger) : Option (Storage × Ledger) :=
  match connect rewriting 80400 [] (fun _ => 0) (fun _ => 0) known.1 with
  | .error _ => none
  | .ok (_,session) =>
    match receivePackets rewriting packets session with
    | .error _ _ => none
    | .ok _ session' =>
      match disconnect false session'.storage with
      | .error _ _ => none
      | .ok _ t => some (t,(known.2.follow rewriting packets session).settle t)

theorem sourced_of_visit {packets : List Bytes} {known after : Storage × Ledger} (sourced : Sourced known.1 known.2)
    (found : visit packets known = some after) : Sourced after.1 after.2 := by
  unfold visit at found
  split at found
  · cases found
  · rename_i connected
    split at found
    · cases found
    · rename_i received
      split at found
      · cases found
      · rename_i disconnected
        cases found
        exact sourced.session rfl nothing_purged connected received disconnected

theorem emptyStorage_sourced : Sourced Storage.Sample.emptyStorage {} := .start (u := ()) rfl

/-- The files of a source. -/
def earlier : Bytes := ascii "s.000001"
def later : Bytes := ascii "s.000002"

def enter (file : Bytes) : Bytes :=
  packet (Events.Sample.encoded (createEvent .rotate 0 0 1 artificialFlag (RotatePostHeader.encode 4) file true))

/-- Two transactions of a file of the source, and the first one of the next. -/
def changing : List Bytes :=
  [enter earlier,packet (transaction 1 0 1),packet commit,packet (transaction 2 1 2),packet commit,
    enter later,packet (transaction 3 0 1),packet commit]

/-- The next transaction that has not been left out. -/
def resuming : List Bytes := [enter later,packet (transaction 5 1 3),packet commit]

/-- Two transactions, and a third one after some that the source has left out. -/
def leaving : List Bytes :=
  [enter earlier,packet (transaction 1 0 1),packet commit,packet (transaction 2 1 2),packet commit,
    packet (transaction 3 2 10),packet commit]

end Sample

section
attribute [local instance] FlatJson.externals

/-- One transaction has been left out before the last one, which depends on the one that is left in its file. It has to be
    committed after the second one, that of the file before, and it says so. -/
theorem dependency_kept_iff_sample : ∃ s ledger, Sourced s ledger ∧
    ledger.files = [[⟨Sample.earlier,1,0⟩,⟨Sample.earlier,2,1⟩,⟨Sample.later,1,0⟩,⟨Sample.later,3,1⟩]] ∧
    ∃ file, Holds s [file] ∧ ∃ m n, file.numbers[1]? = some m ∧ file.numbers[3]? = some n ∧ m.1 ≤ n.2 := by
  have evaluated : ((Sample.visit Sample.changing (Storage.Sample.emptyStorage,{})).bind (Sample.visit Sample.resuming)).map
      (fun known => known.2.files) =
        some [[⟨Sample.earlier,1,0⟩,⟨Sample.earlier,2,1⟩,⟨Sample.later,1,0⟩,⟨Sample.later,3,1⟩]] := by decide +kernel
  obtain ⟨⟨s,ledger⟩,found,known⟩ := Option.map_eq_some_iff.mp evaluated
  obtain ⟨between,first,second⟩ := Option.bind_eq_some_iff.mp found
  have sourced : Sourced s ledger := Sample.sourced_of_visit (Sample.sourced_of_visit Sample.emptyStorage_sourced first) second
  obtain ⟨files,holds,-,related⟩ := dependency_kept_iff sourced
  refine ⟨s,ledger,sourced,known,?_⟩
  rw [show ledger.files = _ from known] at related
  cases related with
  | @cons file _ _ _ pairs nothing =>
    cases nothing
    obtain ⟨length,pairs⟩ := pairs
    obtain ⟨m,first⟩ : ∃ m, file.numbers[1]? = some m := ⟨_,List.getElem?_eq_getElem (by rw [length]; decide)⟩
    obtain ⟨n,second⟩ : ∃ n, file.numbers[3]? = some n := ⟨_,List.getElem?_eq_getElem (by rw [length]; decide)⟩
    refine ⟨file,holds,m,n,first,second,?_⟩
    exact ((pairs (by decide +kernel) [⟨Sample.earlier,1,0⟩] _ [⟨Sample.later,1,0⟩] _ [] m n rfl first second).1.mpr
      (fun _ => .inr (by decide +kernel))) (by decide +kernel)

/-- The third transaction depends on the second one in the source, where seven others are between them, but not in the
    local file. -/
theorem dependency_dropped : ∃ s ledger,
    Sample.visit Sample.leaving (Storage.Sample.emptyStorage,{}) = some (s,ledger) ∧ Sourced s ledger ∧
    ledger.files = [[⟨Sample.earlier,1,0⟩,⟨Sample.earlier,2,1⟩,⟨Sample.earlier,10,2⟩]] ∧
    Origin.Orderly [⟨Sample.earlier,1,0⟩,⟨Sample.earlier,2,1⟩,⟨Sample.earlier,10,2⟩] ∧
    Origin.Precedes ⟨Sample.earlier,2,1⟩ ⟨Sample.earlier,10,2⟩ ∧
    storedNumbers (slice 254 73 s.fileContent) = some (2,1) ∧ storedNumbers (slice 350 73 s.fileContent) = some (3,1) := by
  have evaluated : (Sample.visit Sample.leaving (Storage.Sample.emptyStorage,{})).map (fun known =>
      (known.2.files,storedNumbers (slice 254 73 known.1.fileContent),storedNumbers (slice 350 73 known.1.fileContent))) =
        some ([[⟨Sample.earlier,1,0⟩,⟨Sample.earlier,2,1⟩,⟨Sample.earlier,10,2⟩]],some (2,1),some (3,1)) := by decide +kernel
  obtain ⟨⟨s,ledger⟩,found,known⟩ := Option.map_eq_some_iff.mp evaluated
  simp only [Prod.mk.injEq] at known
  exact ⟨s,ledger,found,Sample.sourced_of_visit Sample.emptyStorage_sourced found,known.1,by decide +kernel,by decide +kernel,
    known.2⟩

end
end Session
end BinlogServer.App
