import BinlogServer.Store.Recovery

/-!
# When the process is killed

An operation makes its calls to the backend one after the other, and the call that commits it is the last one. What
a killed process leaves behind is a `Cut` of the effects of these calls.
-/

namespace BinlogServer.Store
open ByteString Util Gtids Events

/-- The object an effect is about. -/
def Effect.name : Effect → Bytes
  | .create name => name
  | .append name _ => name
  | .put name _ => name
  | .remove name => name

theorem Effect.find?_apply_other (effect : Effect) (objects : Objects) {key : Bytes} (other : effect.name ≠ key) :
    (effect.apply objects).find? key = objects.find? key := by
  cases effect with
  | create name => simp [Effect.apply,SortedMap.find?_insert,Ne.symm (show name ≠ key from other)]
  | append name data => simp [Effect.apply,SortedMap.find?_alter,Ne.symm (show name ≠ key from other)]
  | put name content => simp [Effect.apply,SortedMap.find?_insert,Ne.symm (show name ≠ key from other)]
  | remove name => simp [Effect.apply,SortedMap.find?_erase,Ne.symm (show name ≠ key from other)]

/-- What is left where not all of the effects have taken place: some of them have, and perhaps a part of an append. -/
inductive Cut : Objects → List Effect → Objects → Prop where
  | before (objects : Objects) (effect : Effect) (rest : List Effect) : Cut objects (effect :: rest) objects
  | within (objects : Objects) (name data : Bytes) (rest : List Effect) (count : Nat) :
      Cut objects (.append name data :: rest) ((Effect.append name (data.take count)).apply objects)
  | after {objects left : Objects} {effect : Effect} {rest : List Effect} (cut : Cut (effect.apply objects) rest left) :
      Cut objects (effect :: rest) left

/-- Where the last effect is not an append, an object that only the last effect is about has not been touched. -/
theorem Cut.find?_untouched {objects left : Objects} {effects : List Effect} (cut : Cut objects effects left) {key : Bytes}
    (untouched : ∀ effect ∈ effects.dropLast, effect.name ≠ key)
    (whole : ∀ name data, effects.getLast? ≠ some (.append name data)) :
    left.find? key = objects.find? key := by
  induction cut with
  | before objects effect rest => rfl
  | within objects name data rest count =>
    cases rest with
    | nil => exact absurd rfl (whole name data)
    | cons next rest => exact Effect.find?_apply_other _ objects (untouched (.append name data) (by simp))
  | @after objects left effect rest cut ih =>
    cases rest with
    | nil => cases cut
    | cons next rest =>
      rw [ih (fun other member => untouched other (by simp [List.dropLast_cons_cons,member]))
        (fun name data last => whole name data (by simpa using last))]
      exact Effect.find?_apply_other effect objects (untouched effect (by simp))

/-- What a killed process leaves behind. -/
@[simps] def Backend.killed (b : Backend) (objects : Objects) : Backend := { b with objects := objects, stream := none }

namespace Storage

section
variable [Externals] {s t : Storage}

/-- Where the last of the effects commits them, what was recorded before is restored. -/
private theorem Consistent.uncommitted (consistent : Consistent s) {effects : List Effect} {left : Objects}
    (cut : Cut s.backend.objects effects left)
    (untouched : ∀ effect ∈ effects.dropLast, effect.name ≠ defaultBinlogIndexName ∧
      ∀ record ∈ s.records, effect.name ≠ generateBinlogMetadataName record.name)
    (whole : ∀ name data, effects.getLast? ≠ some (.append name data)) {mode : ReplicationMode}
    {checkpoint : Checkpoint} {u : Unit} {r : Storage}
    (constructed : construct .streaming mode checkpoint (s.backend.killed left) = .ok u r) : r.records = s.records :=
  consistent.restores (cut.find?_untouched (fun effect member => (untouched effect member).1) whole)
    (fun record known => cut.find?_untouched (fun effect member => (untouched effect member).2 record known) whole)
    (by decide) constructed

omit [Externals] in
private theorem streamEffect_name (b : Backend) (stream : Stream) (data : Bytes) :
    (b.streamEffect stream data).name = stream.name := by
  unfold Backend.streamEffect
  split <;> rfl

omit [Externals] in
private theorem createEffects_name (type : BackendType) {name : Bytes} :
    ∀ effect ∈ Backend.createEffects type name, effect.name = name := by
  cases type <;> simp [Backend.createEffects,Effect.name]

/-- An operation that was not completed has not changed the records that are restored. -/
theorem Consistent.cut (consistent : Consistent s) (outcome : Outcome s t) {effects : List Effect}
    (made : t.backend.effects = s.backend.effects ++ effects) {left : Objects}
    (cut : Cut s.backend.objects effects left) {mode : ReplicationMode} {checkpoint : Checkpoint} {u : Unit} {r : Storage}
    (constructed : construct .streaming mode checkpoint (s.backend.killed left) = .ok u r) : r.records = s.records := by
  cases outcome with
  | quiet same =>
    rw [same.effects] at made
    rw [List.append_right_eq_self.mp made.symm] at cut
    cases cut
  | flush before sound journaled flush after =>
    -- the file is written first, the metadata last
    rw [after.effects, flushed_backend, Backend.perform_effects, Backend.streamed_effects, before.effects,
      List.append_assoc, List.append_cancel_left_eq] at made
    subst made
    refine consistent.uncommitted cut (fun effect member => ?_) (by simp) constructed
    obtain rfl : effect = _ := by simpa using member
    rw [streamEffect_name, journaled.name]
    exact ⟨str_ne_index _,fun record _ => str_ne_metadata _ _⟩
  | @create name new after =>
    -- the file and its metadata are those of no other record, and the index is saved last
    rw [after.effects, created_backend, Backend.perform_effects, Backend.perform_effects, startFile_effects,
      List.append_assoc, List.append_assoc, List.append_assoc, List.append_cancel_left_eq] at made
    subst made
    refine consistent.uncommitted cut (fun effect member => ?_) (by simp) constructed
    simp only [← List.append_assoc, List.dropLast_concat, List.mem_append, List.mem_singleton] at member
    have named : effect.name = name.str ∨ effect.name = generateBinlogMetadataName name := by
      rcases member with (member | rfl) | rfl
      · exact .inl (createEffects_name _ effect member)
      · exact .inl (streamEffect_name _ _ _)
      · exact .inr rfl
    rcases named with named | named <;> rw [named]
    · exact ⟨str_ne_index _,fun record _ => str_ne_metadata _ _⟩
    · exact ⟨generateBinlogMetadataName_ne_index _,fun record known same =>
        new record known (generateBinlogMetadataName_injective same).symm⟩

omit [Externals] in
private theorem purgeNames_concat (front : List BinlogRecord) (last : BinlogRecord) :
    purgeNames (front ++ [last]) =
      (purgeNames front ++ [generateBinlogMetadataName last.name]) ++ [last.name.str] := by
  simp [purgeNames]

/-- A purge that was not completed either has not begun, or has left a file that is not in the index. -/
theorem Consistent.purge_cut (consistent : Consistent s) {removed kept : List BinlogRecord}
    (shape : s.records = removed ++ kept) (victims : removed ≠ [])
    (files : ∀ record ∈ s.records, s.backend.objects.find? record.name.str ≠ none) {effects : List Effect}
    (made : (s.purged removed kept).backend.effects = s.backend.effects ++ effects) {left : Objects}
    (cut : Cut s.backend.objects effects left) {mode : ReplicationMode} {checkpoint : Checkpoint} {u : Unit} {r : Storage}
    (constructed : construct .streaming mode checkpoint (s.backend.killed left) = .ok u r) : r.records = s.records := by
  rw [purged_backend, Backend.performAll_effects, List.append_cancel_left_eq] at made
  subst made
  cases cut with
  | before => exact consistent.restores (b := s.backend.killed _) rfl (fun _ _ => rfl) (by decide) constructed
  | after cut =>
    exfalso
    obtain ⟨front,last,rfl⟩ := (List.eq_nil_or_concat' removed).resolve_left victims
    have distinct := consistent.distinct
    rw [shape, List.map_append, List.nodup_append] at distinct
    have names := purgeNames_nodup distinct.1
    have apart : ∀ record ∈ kept, last.name ≠ record.name := fun record member =>
      distinct.2.2 _ (by simp) _ (List.mem_map_of_mem member)
    have whole : ∀ name data, ((purgeNames (front ++ [last])).map Effect.remove).getLast? ≠ some (.append name data) := by
      simp [purgeNames_concat]
    -- no removal before the last one is about the last file
    have there : left.find? last.name.str ≠ none := by
      rw [cut.find?_untouched (fun effect member => ?_) whole, Backend.find?_put, if_neg (by simp)]
      · exact files last (by simp [shape])
      · rw [purgeNames_concat, List.nodup_append] at names
        rw [purgeNames_concat, List.map_append, List.map_singleton, List.dropLast_concat] at member
        obtain ⟨name,known,rfl⟩ := List.mem_map.mp member
        exact names.2.2 name known _ (by simp)
    -- no removal is about what is kept
    have untouched : ∀ key, key ∉ purgeNames (front ++ [last]) →
        left.find? key = ((Effect.put defaultBinlogIndexName (indexText kept)).apply s.backend.objects).find? key := by
      refine fun key out => cut.find?_untouched (fun effect member => ?_) whole
      obtain ⟨name,known,rfl⟩ := List.mem_map.mp (List.dropLast_subset _ member)
      exact fun same => out (same ▸ known)
    have index : left.find? defaultBinlogIndexName = some (indexText kept) := by
      rw [untouched, Backend.find?_put, if_pos rfl]
      intro victim
      obtain ⟨record,-,same | same⟩ := mem_purgeNames.mp victim
      · exact generateBinlogMetadataName_ne_index _ same.symm
      · exact str_ne_index _ same.symm
    have documents : ∀ record ∈ kept, ∃ document,
        left.find? (generateBinlogMetadataName record.name) = some document ∧
          BinlogFileMetadata.parse record.name document = .ok record := by
      intro record member
      rw [untouched, Backend.find?_put, if_neg (generateBinlogMetadataName_ne_index _)]
      · exact consistent.documents record (by simp [shape,member])
      · intro victim
        obtain ⟨other,gone,same | same⟩ := mem_purgeNames.mp victim
        · exact distinct.2.2 _ (List.mem_map_of_mem gone) _ (List.mem_map_of_mem member)
            (generateBinlogMetadataName_injective same).symm
        · exact str_ne_metadata _ _ same.symm
    have present : last.name.str ∈ left.keys := SortedMap.mem_keys.mpr (Option.isSome_iff_ne_none.mpr there)
    rcases construct_ok (by decide) constructed with ⟨empty,-⟩ | ⟨-,⟨only,-⟩ | ⟨loaded,restored,-⟩⟩
    · simp only [Backend.killed_objects] at empty
      simp [SortedMap.keys,empty] at present
    · exact str_ne_metadataName _ (only _ present)
    · obtain rfl := restored.records_eq index documents
      obtain ⟨record,member,same | same⟩ := restored.known _ present (str_ne_metadataName _) (str_ne_index _)
      · exact apart record member (CompositeBinlogName.str_injective same)
      · exact str_ne_metadata _ _ same

omit [Externals] in
private theorem replay_append (objects : Objects) (front back : List Effect) :
    replay objects (front ++ back) = replay (replay objects front) back := List.foldl_append

/-- What an operation does to the objects is what its effects do. -/
theorem Outcome.effects (outcome : Outcome s t) : ∃ effects, t.backend.effects = s.backend.effects ++ effects ∧
    t.backend.objects = replay s.backend.objects effects := by
  cases outcome with
  | quiet same => exact ⟨[],by simp [same.effects],same.objects⟩
  | flush before sound journaled flush after =>
    rw [after.effects, after.objects, flushed_backend, Backend.perform_effects, Backend.streamed_effects, before.effects,
      List.append_assoc]
    exact ⟨_,rfl,by rw [replay_append, ← before.objects]; rfl⟩
  | create new after =>
    rw [after.effects, after.objects, created_backend, Backend.perform_effects, Backend.perform_effects,
      startFile_effects, List.append_assoc, List.append_assoc, List.append_assoc]
    exact ⟨_,rfl,by rw [replay_append]; rfl⟩

/-- A storage that is constructed over the objects that were left in a backend. -/
def Reconstructs (b : Backend) (left : Objects) (r : Storage) : Prop :=
  ∃ mode checkpoint u, construct .streaming mode checkpoint (b.killed left) = .ok u r

/-- Whenever the process is killed, a storage that can be constructed over what is left has the records of the last
    operation that was completed: between the operations, in the course of one, and in the course of a purge. -/
theorem killed_restores {log : Option FileLog} {history : History} (run : Run s log history) :
    (∀ r, Reconstructs s.backend s.backend.objects r → r.records = s.records) ∧
    (∀ (operation : Operation) now u t, operation.allowed s = true → operation.run now s = .ok u t →
      ∃ effects, t.backend.effects = s.backend.effects ++ effects ∧
        t.backend.objects = replay s.backend.objects effects ∧
        ∀ left, Cut s.backend.objects effects left → ∀ r, Reconstructs s.backend left r → r.records = s.records) ∧
    ∀ mode settings u p target result q, construct .purging mode settings s.destroy = .ok u p →
      purgeBinlogs target p = .ok result q →
      (∀ r, Reconstructs q.backend q.backend.objects r → r.records = q.records) ∧
      ∃ effects, q.backend.effects = p.backend.effects ++ effects ∧
        q.backend.objects = replay p.backend.objects effects ∧
        ∀ left, Cut p.backend.objects effects left → ∀ r, Reconstructs p.backend left r → r.records = p.records := by
  have consistent := run.consistent
  have tracked := run.tracked
  refine ⟨?_,fun operation now u t allowed returned => ?_,fun mode settings u p target result q examined purged => ?_⟩
  · rintro r ⟨mode,checkpoint,u,constructed⟩
    exact consistent.restores (b := s.backend.killed _) rfl (fun _ _ => rfl) (by decide) constructed
  · have outcome := tracked.outcome allowed returned
    obtain ⟨effects,made,objects⟩ := outcome.effects
    refine ⟨effects,made,objects,?_⟩
    rintro left cut r ⟨mode,checkpoint,v,constructed⟩
    exact consistent.cut outcome made cut constructed
  · have healthy := tracked.destroy.1
    have before : Consistent p :=
      (consistent.step tracked.destroyed).constructed healthy (by rw [destroy_eq]; rfl) (by decide) examined
    obtain ⟨restored,backend,-,kept,shape,victims,some,rfl⟩ := purge_ok healthy examined purged
    have after : Consistent (p.purged result.1 kept) := before.purge shape some
    refine ⟨?_,_,rfl,rfl,?_⟩
    · rintro r ⟨mode,checkpoint,v,constructed⟩
      exact after.restores (b := (p.purged result.1 kept).backend.killed _) rfl (fun _ _ => rfl) (by decide) constructed
    · rintro left cut r ⟨mode,checkpoint,v,constructed⟩
      refine before.purge_cut shape victims (fun record member => ?_) rfl cut constructed
      obtain ⟨⟨content,file,-⟩,-⟩ := restored.loaded record member
      simp [backend,file]

end

section
open FlatJson
attribute [local instance] externals

private def constructs (b : Backend) (left : Objects) : Bool :=
  match construct .streaming .gtid {} (b.killed left) with
  | .ok _ _ => true
  | .error _ _ => false

private theorem reconstructs_of_constructs {b : Backend} {left : Objects} (accepted : constructs b left = true) :
    ∃ r, Reconstructs b left r := by
  unfold constructs at accepted
  split at accepted
  · rename_i u r constructed
    exact ⟨r,_,_,u,constructed⟩
  · cases accepted

/-- What is left if the process is killed after three bytes of an append. -/
private def torn (objects : Objects) : List Effect → Objects
  | .append name data :: _ => (Effect.append name (data.take 3)).apply objects
  | _ => objects

private theorem cut_torn (objects : Objects) {effects : List Effect} (some : effects ≠ []) :
    Cut objects effects (torn objects effects) := by
  cases effects with
  | nil => exact absurd rfl some
  | cons effect rest =>
    cases effect with
    | append name data => exact .within objects name data rest 3
    | _ => exact .before ..

/-- The end of the transaction that is followed by another checkpoint. -/
private def another : Operation := .writeEvent (Sample.entry "commit" true)

/-- The sizes before and after another checkpoint, and whether a storage can be constructed if the process is killed as
    it begins, and in the middle of its first effect. -/
private def interrupted (s : Storage) : Option (List Nat × List Nat × Nat × Bool × Bool) :=
  match another.allowed s, another.run 0 s with
  | true, .ok _ t =>
    let effects := t.backend.effects.drop s.backend.effects.length
    some (s.records.map BinlogRecord.size,t.records.map BinlogRecord.size,effects.length,
      constructs s.backend s.backend.objects,constructs s.backend (torn s.backend.objects effects))
  | _, _ => none

/-- After a checkpoint and in the course of the next one the process is killed: as the next one begins nothing is lost,
    and when a part of the events has been written the storage is refused. -/
theorem killed_restores_checkpoint : ∃ (s t r : Storage) (log : Option FileLog) (history : History) (u : Unit)
    (effects : List Effect) (left : Objects), Run s log history ∧ Reconstructs s.backend s.backend.objects r ∧
    r.records = s.records ∧ another.run 0 s = .ok u t ∧ s.records.map BinlogRecord.size = [16] ∧
    t.records.map BinlogRecord.size = [28] ∧ t.backend.effects = s.backend.effects ++ effects ∧ effects.length = 2 ∧
    Cut s.backend.objects effects s.backend.objects ∧ Cut s.backend.objects effects left ∧
    constructs s.backend left = false ∧ ∀ r, Reconstructs s.backend left r → r.records = s.records := by
  have accepted : (follow Sample.operations ⟨Sample.emptyStorage,none,{}⟩).bind (fun x => interrupted x.storage) =
      some ([16],[28],2,true,false) := by decide +kernel
  obtain ⟨x,followed,accepted⟩ := Option.bind_eq_some_iff.mp accepted
  have run := follow_run Sample.emptyStorage_run followed
  unfold interrupted at accepted
  split at accepted
  · rename_i u t allowed returned
    simp only [Option.some.injEq, Prod.mk.injEq] at accepted
    obtain ⟨before,after,two,whole,refused⟩ := accepted
    obtain ⟨r,again⟩ := reconstructs_of_constructs whole
    obtain ⟨between,during,-⟩ := killed_restores run
    obtain ⟨effects,made,-,restores⟩ := during another 0 u t allowed returned
    rw [made, List.drop_left] at two refused
    have some : effects ≠ [] := by
      rintro rfl
      cases two
    have torn := cut_torn x.storage.backend.objects some
    have first : Cut x.storage.backend.objects effects x.storage.backend.objects := by
      cases effects with
      | nil => exact absurd rfl some
      | cons effect rest => exact .before ..
    exact ⟨x.storage,t,r,x.log,x.history,u,effects,_,run,again,restores _ first r again,returned,before,after,made,two,
      first,torn,refused,restores _ torn⟩
  · cases accepted

end
end Storage
end BinlogServer.Store
