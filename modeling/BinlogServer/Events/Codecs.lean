import BinlogServer.Events.TaggedCodec

/-!
# Headers and bodies that are read back

For each of the post headers and bodies that the server writes: what the constructor from a byte span can give is
written in the size that is calculated for it, and is read again as it was.
-/

namespace BinlogServer.Events
open ByteString Util Gtids

theorem extractFixedInt_eq {width value : Nat} {remainder rest : Bytes} (enough : width ≤ remainder.length) :
    extractFixedInt width remainder = (value,rest) ↔ value < 256 ^ width ∧ remainder = leBytes width value ++ rest := by
  rw [← extractFixedIntChecked_eq_some, extractFixedIntChecked, if_neg (by omega), Option.some.injEq]

theorem extractFixedInt_leBytes {width value : Nat} (fits : value < 256 ^ width) (rest : Bytes) :
    extractFixedInt width (leBytes width value ++ rest) = (value,rest) :=
  (extractFixedInt_eq (by simp)).mpr ⟨fits,rfl⟩

theorem extractFixedInt_lt (width : Nat) (remainder : Bytes) : (extractFixedInt width remainder).1 < 256 ^ width :=
  lt_of_lt_of_le (leNat_lt (remainder.take width)) (Nat.pow_le_pow_right (by decide) (by simp))

theorem RotatePostHeader.make_eq_ok {portion : Bytes} {position : Nat} :
    make portion = .ok position ↔ position < 2 ^ 64 ∧ portion = encode position := by
  simp only [make, encode, bind_eq_ok, raiseIf_eq_ok, pure_eq_ok, exists_const, ne_eq, not_not]
  constructor
  · rintro ⟨sized,rfl⟩
    have bound := leNat_lt portion
    have bytes := leBytes_leNat portion
    rw [sized] at bound bytes
    exact ⟨by omega,bytes.symm⟩
  · rintro ⟨fits,rfl⟩
    exact ⟨by simp,leNat_leBytes_of_lt (by omega)⟩

theorem FormatDescriptionBody.make_encode (algorithm : ChecksumAlgorithmType) : make (encode algorithm) = .ok algorithm := by
  cases algorithm <;> rfl

namespace GtidLogPostHeader

/-- The values of the members fit their types, and the logical timestamps are those of a clock. -/
structure Bounded (header : GtidLogPostHeader) : Prop where
  flags : header.flags < 2 ^ 8
  gno : header.gno < 2 ^ 64
  logicalTsCode : header.logicalTsCode = 2
  lastCommitted : header.lastCommitted < 2 ^ 64
  sequenceNumber : header.sequenceNumber < 2 ^ 64

variable {header : GtidLogPostHeader}

@[simp] theorem length_encode (header : GtidLogPostHeader) : header.encode.length = 42 := by
  simp [encode,header.uuid.sized]

theorem make_bounded {portion : Bytes} (read : make portion = .ok header) : header.Bounded := by
  simp only [make, bind_eq_ok, raiseIf_eq_ok, pure_eq_ok, exists_const, ne_eq, not_not] at read
  obtain ⟨-,code,rfl⟩ := read
  exact ⟨extractFixedInt_lt 1 _,extractFixedInt_lt 8 _,code,extractFixedInt_lt 8 _,extractFixedInt_lt 8 _⟩

theorem Bounded.make_encode (bounded : header.Bounded) : make header.encode = .ok header := by
  have flags : header.flags < 256 ^ 1 := bounded.flags
  have gno : header.gno < 256 ^ 8 := bounded.gno
  have code : header.logicalTsCode < 256 ^ 1 := by
    rw [bounded.logicalTsCode]
    decide
  have lastCommitted : header.lastCommitted < 256 ^ 8 := bounded.lastCommitted
  have sequenceNumber : header.sequenceNumber < 256 ^ 8 := bounded.sequenceNumber
  have last := extractFixedInt_leBytes sequenceNumber []
  rw [List.append_nil] at last
  simp only [make, bind_eq_ok, raiseIf_eq_ok, pure_eq_ok, exists_const, length_encode, ne_eq, not_not, true_and]
  simp only [encode, List.append_assoc, extractFixedInt_leBytes flags, List.take_left' header.uuid.sized,
    List.drop_left' header.uuid.sized, extractFixedInt_leBytes gno, extractFixedInt_leBytes code,
    extractFixedInt_leBytes lastCommitted, last, Uuid.ofStorage_raw]
  exact ⟨bounded.logicalTsCode,trivial⟩

end GtidLogPostHeader

namespace GtidLogBody

/-- What a body that was read has: the versions and the ticket are there only after the immediate version. -/
structure Readable (body : GtidLogBody) : Prop where
  immediateCommitTimestamp : body.immediateCommitTimestamp < 2 ^ 55
  originalCommitTimestamp : body.originalCommitTimestamp ≠ unset64 → body.originalCommitTimestamp < 2 ^ 56
  transactionLength : body.transactionLength < 2 ^ 64
  immediateServerVersion : body.immediateServerVersion ≠ unset32 → body.immediateServerVersion < 2 ^ 31
  originalServerVersion : body.originalServerVersion < 2 ^ 32
  commitGroupTicket : body.commitGroupTicket < 2 ^ 64
  versioned : body.immediateServerVersion = unset32 →
    body.originalServerVersion = unset32 ∧ body.commitGroupTicket = unset64

section
variable {body : GtidLogBody} {remainder rest : Bytes} {immediate original : Nat}

theorem extractCommitTimestamps_bounds
    (read : extractCommitTimestamps remainder = .ok (immediate,original,rest)) :
    immediate < 2 ^ 55 ∧ (original ≠ unset64 → original < 2 ^ 56) := by
  simp only [extractCommitTimestamps, bind_eq_ok] at read
  obtain ⟨⟨first,_⟩,extracted,read⟩ := read
  have bound := (extractFixedIntChecked_eq_some.mp (extracted_eq_ok.mp extracted)).1
  split at read
  · simp only [bind_eq_ok, pure_eq_ok] at read
    obtain ⟨⟨second,_⟩,extracted,same⟩ := read
    cases same
    have bound := (extractFixedIntChecked_eq_some.mp (extracted_eq_ok.mp extracted)).1
    exact ⟨Nat.mod_lt _ (by decide),fun _ => by omega⟩
  · rename_i clear
    cases pure_eq_ok.mp read
    refine ⟨?_,fun set => absurd rfl set⟩
    by_contra large
    refine clear (Nat.testBit_of_two_pow_le_and_two_pow_add_one_gt (by omega) (by omega))

theorem extractServerVersions_bounds (enough : 4 ≤ remainder.length)
    (read : extractServerVersions remainder = .ok (immediate,original,rest)) :
    immediate < 2 ^ 31 ∧ original < 2 ^ 32 := by
  rcases extracted : extractFixedInt 4 remainder with ⟨first,left⟩
  have bound := ((extractFixedInt_eq enough).mp extracted).1
  simp only [extractServerVersions, extracted] at read
  split at read
  · simp only [bind_eq_ok, pure_eq_ok] at read
    obtain ⟨⟨second,_⟩,extracted,same⟩ := read
    cases same
    have bound := (extractFixedIntChecked_eq_some.mp (extracted_eq_ok.mp extracted)).1
    exact ⟨Nat.mod_lt _ (by decide),by omega⟩
  · rename_i clear
    cases pure_eq_ok.mp read
    refine ⟨?_,by decide⟩
    by_contra large
    exact clear (Nat.testBit_of_two_pow_le_and_two_pow_add_one_gt (by omega) (by omega))

private theorem unset64_lt : unset64 < 2 ^ 64 := by decide
private theorem unset32_lt : unset32 < 2 ^ 32 := by decide

theorem make_readable (read : make remainder = .ok body) : body.Readable := by
  simp only [make, bind_eq_ok] at read
  obtain ⟨⟨immediate,original,_⟩,timestamps,⟨length,left⟩,packed,read⟩ := read
  obtain ⟨immediateBound,originalBound⟩ := extractCommitTimestamps_bounds timestamps
  have lengthBound := extractPackedIntChecked_lt (extracted_eq_ok.mp packed)
  split at read
  · rename_i enough
    simp only [bind_eq_ok] at read
    obtain ⟨⟨version,originalVersion,_⟩,versions,read⟩ := read
    obtain ⟨versionBound,originalVersionBound⟩ := extractServerVersions_bounds enough versions
    have set : version ≠ unset32 := by
      unfold unset32
      omega
    split at read <;> simp only [bind_eq_ok, pure_eq_ok, raiseIf_eq_ok, exists_const] at read
    · rename_i long
      obtain ⟨_,rfl,-,rfl⟩ := read
      exact ⟨immediateBound,originalBound,lengthBound,fun _ => versionBound,originalVersionBound,
        ((extractFixedInt_eq long).mp rfl).1,fun unset => absurd unset set⟩
    · obtain ⟨_,rfl,-,rfl⟩ := read
      exact ⟨immediateBound,originalBound,lengthBound,fun _ => versionBound,originalVersionBound,unset64_lt,
        fun unset => absurd unset set⟩
  · simp only [bind_eq_ok, pure_eq_ok, raiseIf_eq_ok, exists_const] at read
    obtain ⟨_,rfl,-,rfl⟩ := read
    exact ⟨immediateBound,originalBound,lengthBound,fun set => absurd rfl set,unset32_lt,unset64_lt,fun _ => ⟨rfl,rfl⟩⟩

/-- A field with its top bit set to say that another one follows. -/
private theorem or_two_pow {value bits : Nat} (small : value < 2 ^ bits) :
    (value ||| 2 ^ bits) < 2 ^ (bits + 1) ∧ (value ||| 2 ^ bits).testBit bits = true ∧
      (value ||| 2 ^ bits) % 2 ^ bits = value := by
  have sum : value ||| 2 ^ bits = 2 ^ bits + value := by
    have := Nat.two_pow_add_eq_or_of_lt small 1
    rw [Nat.mul_one] at this
    rw [this, Nat.or_comm]
  refine ⟨?_,by simp,?_⟩
  · rw [sum, Nat.pow_succ]
    omega
  · rw [sum, Nat.add_mod_left, Nat.mod_eq_of_lt small]

theorem Readable.extractCommitTimestamps (readable : body.Readable) (rest : Bytes) :
    GtidLogBody.extractCommitTimestamps (body.encodeCommitTimestamps ++ rest) =
      .ok (body.immediateCommitTimestamp,body.originalCommitTimestamp,rest) := by
  have small := readable.immediateCommitTimestamp
  unfold GtidLogBody.extractCommitTimestamps encodeCommitTimestamps
  simp only [bind_eq_ok]
  split
  · rename_i set
    obtain ⟨bound,bit,low⟩ := or_two_pow small
    have original : body.originalCommitTimestamp < 256 ^ 7 := readable.originalCommitTimestamp set
    rw [List.append_assoc]
    refine ⟨_,extracted_eq_ok.mpr (extractFixedIntChecked_eq_some.mpr ⟨bound,rfl⟩),?_⟩
    rw [if_pos bit]
    simp only [bind_eq_ok, pure_eq_ok]
    exact ⟨_,extracted_eq_ok.mpr (extractFixedIntChecked_eq_some.mpr ⟨original,rfl⟩),by rw [low]⟩
  · rename_i unset
    refine ⟨_,extracted_eq_ok.mpr (extractFixedIntChecked_eq_some.mpr ⟨lt_trans small (by decide),rfl⟩),?_⟩
    rw [if_neg (by simp [Nat.testBit_lt_two_pow small]), not_not.mp unset]
    rfl

theorem Readable.extractServerVersions (readable : body.Readable) (set : body.immediateServerVersion ≠ unset32)
    (rest : Bytes) :
    GtidLogBody.extractServerVersions (body.encodeServerVersions ++ rest) =
      .ok (body.immediateServerVersion,body.originalServerVersion,rest) := by
  have small := readable.immediateServerVersion set
  unfold GtidLogBody.extractServerVersions encodeServerVersions
  by_cases original : body.originalServerVersion ≠ unset32
  · rw [if_pos original]
    obtain ⟨bound,bit,low⟩ := or_two_pow small
    have original : body.originalServerVersion < 256 ^ 4 := readable.originalServerVersion
    rw [List.append_assoc, extractFixedInt_leBytes bound]
    simp only [bit, if_true, bind_eq_ok, pure_eq_ok]
    exact ⟨_,extracted_eq_ok.mpr (extractFixedIntChecked_eq_some.mpr ⟨original,rfl⟩),by rw [low]⟩
  · rw [if_neg original, extractFixedInt_leBytes (lt_trans small (by decide)), not_not.mp original]
    simp only [Nat.testBit_lt_two_pow small, Bool.false_eq_true, if_false]
    rfl

@[simp] theorem length_encode (body : GtidLogBody) : body.encode.length = body.calculateEncodedSize := by
  unfold encode calculateEncodedSize encodeCommitTimestamps encodeServerVersions
  split_ifs <;> simp <;> omega

theorem Readable.make_encode (readable : body.Readable) : make body.encode = .ok body := by
  unfold encode
  simp only [make, bind_eq_ok, List.append_assoc]
  refine ⟨_,readable.extractCommitTimestamps _,_,
    extracted_eq_ok.mpr (extractPackedIntChecked_insertPackedInt readable.transactionLength _),?_⟩
  by_cases set : body.immediateServerVersion ≠ unset32
  · rw [if_pos set, if_pos]
    · simp only [bind_eq_ok]
      refine ⟨_,readable.extractServerVersions set _,?_⟩
      have ticket : body.commitGroupTicket < 256 ^ 8 := readable.commitGroupTicket
      have last := extractFixedInt_leBytes ticket []
      rw [List.append_nil] at last
      by_cases ticketed : body.commitGroupTicket ≠ unset64
      · rw [if_pos ticketed, if_pos (by simp)]
        simp only [last, bind_eq_ok, pure_eq_ok, raiseIf_eq_ok, exists_const]
        exact ⟨_,rfl,by simp,rfl⟩
      · rw [if_neg ticketed, if_neg (by simp)]
        simp only [bind_eq_ok, pure_eq_ok, raiseIf_eq_ok, exists_const]
        exact ⟨_,rfl,by simp,by rw [← not_not.mp ticketed]⟩
    · unfold encodeServerVersions
      split <;> simp
  · obtain ⟨originalUnset,ticketUnset⟩ := readable.versioned (not_not.mp set)
    rw [if_neg set, if_neg (by simp)]
    simp only [bind_eq_ok, pure_eq_ok, raiseIf_eq_ok, exists_const]
    refine ⟨_,rfl,by simp,?_⟩
    cases body
    simp_all

/-- Only the length of the transaction is as large as its type. -/
theorem Readable.withTransactionLength (readable : body.Readable) {transactionLength : Nat}
    (fits : transactionLength < 2 ^ 64) : ({ body with transactionLength } : GtidLogBody).Readable := by
  obtain ⟨immediate,original,-,version,originalVersion,ticket,versioned⟩ := readable
  exact ⟨immediate,original,fits,version,originalVersion,ticket,versioned⟩

/-- A body that was read is written in the calculated size and is read back, with the optional fields it has and
    no others; the same holds with any other length of the transaction. -/
theorem gtid_log_body_reread {portion : Bytes} (read : make portion = .ok body) :
    body.encode.length = body.calculateEncodedSize ∧
      (∃ decoded, make body.encode = .ok decoded ∧ decoded = body ∧
        decoded.hasOriginalCommitTimestamp = body.hasOriginalCommitTimestamp ∧
        decoded.hasImmediateServerVersion = body.hasImmediateServerVersion ∧
        decoded.hasOriginalServerVersion = body.hasOriginalServerVersion ∧
        decoded.hasCommitGroupTicket = body.hasCommitGroupTicket) ∧
      ∀ transactionLength < 2 ^ 64,
        make ({ body with transactionLength } : GtidLogBody).encode = .ok { body with transactionLength } := by
  have readable := make_readable read
  refine ⟨body.length_encode,⟨body,readable.make_encode,rfl,rfl,rfl,rfl,rfl⟩,?_⟩
  intro transactionLength fits
  exact (readable.withTransactionLength fits).make_encode

/-- A body with all the optional fields. -/
def Sample.logBody : GtidLogBody := ⟨1,2,300,80400,80300,7⟩

theorem gtid_log_body_reread_sample : make Sample.logBody.encode = .ok Sample.logBody ∧
    Sample.logBody.encode.length = Sample.logBody.calculateEncodedSize ∧
      (∃ decoded, make Sample.logBody.encode = .ok decoded ∧ decoded = Sample.logBody ∧
        decoded.hasOriginalCommitTimestamp = Sample.logBody.hasOriginalCommitTimestamp ∧
        decoded.hasImmediateServerVersion = Sample.logBody.hasImmediateServerVersion ∧
        decoded.hasOriginalServerVersion = Sample.logBody.hasOriginalServerVersion ∧
        decoded.hasCommitGroupTicket = Sample.logBody.hasCommitGroupTicket) ∧
      ∀ transactionLength < 2 ^ 64,
        make ({ Sample.logBody with transactionLength } : GtidLogBody).encode =
          .ok { Sample.logBody with transactionLength } :=
  have read : make Sample.logBody.encode = .ok Sample.logBody := by decide +kernel
  ⟨read,gtid_log_body_reread read⟩

end
end GtidLogBody

namespace FormatDescriptionPostHeader

/-- What a post header that was read has, for the version that its text stands for. -/
structure Readable (header : FormatDescriptionPostHeader) (version : Nat) : Prop where
  binlogVersion : header.binlogVersion < 2 ^ 16
  serverVersion : header.serverVersion.length ≤ serverVersionLength
  terminated : 0 ∉ header.serverVersion
  parsed : getEncodedServerVersion header.serverVersion = .ok version
  createTimestamp : header.createTimestamp < 2 ^ 32
  commonHeaderLength : header.commonHeaderLength < 2 ^ 8
  postHeaderLengths : ∃ lengths, lengths.length = getNumberOfEvents version - 1 ∧
    header.postHeaderLengths = lengths ++ List.replicate (maxNumberOfEvents - 1 - lengths.length) 0
  size : getSizeInBytes version = getPostHeaderLengthForCode version header.postHeaderLengths .formatDescription

section
variable {header : FormatDescriptionPostHeader} {version : Nat}

theorem make_readable {portion : Bytes} (read : make portion = .ok header) : ∃ version, header.Readable version := by
  simp only [make, bind_eq_ok, raiseIf_eq_ok, pure_eq_ok, exists_const, ne_eq, not_not] at read
  obtain ⟨range,version,parsed,sized,checked,rfl⟩ := read
  have left : ((((portion.drop 2).drop serverVersionLength).drop 4).drop 1).length = getNumberOfEvents version - 1 := by
    unfold getSizeInBytes serverVersionLength at sized
    unfold serverVersionLength
    simp only [List.length_drop]
    omega
  refine ⟨version,extractFixedInt_lt 2 _,?_,?_,parsed,extractFixedInt_lt 4 _,extractFixedInt_lt 1 _,
    ⟨_,?_,rfl⟩,sized.symm.trans checked⟩
  · exact le_trans (List.takeWhile_sublist _).length_le (by simp)
  · intro zero
    simpa using List.all_eq_true.mp List.all_takeWhile _ zero
  · simp only [extractFixedInt, List.length_take] at left ⊢
    omega

theorem length_of_encode {bytes : Bytes} (short : header.serverVersion.length ≤ serverVersionLength)
    (encoded : header.encode = .ok bytes) : bytes.length ≤ getSizeInBytes latestKnownProtocolServerVersion := by
  simp only [encode, bind_eq_ok, pure_eq_ok] at encoded
  obtain ⟨version,-,rfl⟩ := encoded
  have most : getNumberOfEvents latestKnownProtocolServerVersion = 43 := rfl
  have few : getNumberOfEvents version ≤ 43 := by
    unfold getNumberOfEvents
    split <;> simp
  simp only [List.length_append, leBytes_length, List.length_replicate, List.length_take, getSizeInBytes]
  omega

theorem Readable.make_encode (readable : header.Readable version) : ∃ bytes, header.encode = .ok bytes ∧
    bytes.length = getSizeInBytes version ∧ make bytes = .ok header := by
  obtain ⟨lengths,count,table⟩ := readable.postHeaderLengths
  have short := readable.serverVersion
  have binlogVersion : header.binlogVersion < 256 ^ 2 := readable.binlogVersion
  have createTimestamp : header.createTimestamp < 256 ^ 4 := readable.createTimestamp
  have commonHeaderLength : header.commonHeaderLength < 256 ^ 1 := readable.commonHeaderLength
  have taken : header.postHeaderLengths.take (getNumberOfEvents version - 1) = lengths := by
    rw [table, ← count, List.take_left]
  set padded := header.serverVersion ++ List.replicate (serverVersionLength - header.serverVersion.length) 0 with text
  have width : padded.length = serverVersionLength := by
    simp [text]
    omega
  have cut : padded.takeWhile (· ≠ 0) = header.serverVersion := by
    rw [text, List.takeWhile_append_of_pos (fun c member => by
      simp only [ne_eq, decide_eq_true_eq]
      rintro rfl
      exact readable.terminated member)]
    cases serverVersionLength - header.serverVersion.length <;> simp [List.replicate_succ]
  have events : getNumberOfEvents version = 42 ∨ getNumberOfEvents version = 43 := by
    unfold getNumberOfEvents
    split <;> simp
  have size : (leBytes 2 header.binlogVersion ++ (padded ++ (leBytes 4 header.createTimestamp ++
      (leBytes 1 header.commonHeaderLength ++ lengths)))).length = getSizeInBytes version := by
    simp [width,count,getSizeInBytes]
    omega
  refine ⟨leBytes 2 header.binlogVersion ++ (padded ++ (leBytes 4 header.createTimestamp ++
    (leBytes 1 header.commonHeaderLength ++ lengths))),?_,?_,?_⟩
  · simp only [encode, bind_eq_ok, pure_eq_ok]
    exact ⟨version,readable.parsed,by simp [taken,text]⟩
  · exact size
  · have again : lengths.take (getNumberOfEvents version - 1) = lengths := List.take_of_length_le count.le
    simp only [make, bind_eq_ok, raiseIf_eq_ok, pure_eq_ok, exists_const, ne_eq, not_not,
      extractFixedInt_leBytes binlogVersion, List.take_left' width, List.drop_left' width, cut]
    refine ⟨?_,version,readable.parsed,size,?_,?_⟩
    · rw [size]
      unfold getSizeInBytes serverVersionLength
      rcases events with events | events <;> rw [events] <;> decide
    · rw [extractFixedInt_leBytes createTimestamp]
      simp only [extractFixedInt_leBytes commonHeaderLength]
      rw [again, ← table, size, readable.size]
    · rw [extractFixedInt_leBytes createTimestamp]
      simp only [extractFixedInt_leBytes commonHeaderLength]
      rw [again, ← table]

/-- The text of the version in a post header. -/
def versionText (portion : Bytes) : Bytes := ((portion.drop 2).take serverVersionLength).takeWhile (· ≠ 0)

/-- A post header is read, or the caller can catch what is raised. What has been read has the length that its version
    and its table of lengths say, and it is read again from what is written for it. -/
structure DecodesSafely (portion : Bytes) : Prop where
  raised : ∀ failure, make portion = .error failure → failure.type ≠ .terminate
  read : ∀ header, make portion = .ok header → ∃ version, getEncodedServerVersion header.serverVersion = .ok version ∧
    portion.length = getSizeInBytes version ∧
    portion.length = getPostHeaderLengthForCode version header.postHeaderLengths .formatDescription ∧
    ∃ bytes, header.encode = .ok bytes ∧ bytes.length = portion.length ∧ make bytes = .ok header

/-- Only a version that is no version ends the process, and only in a post header of an allowed length. -/
theorem make_terminates (portion : Bytes) : (∃ failure, make portion = .error failure ∧ failure.type = .terminate) ↔
    98 ≤ portion.length ∧ portion.length ≤ 99 ∧ ∀ version, SemanticVersion.parse (versionText portion) ≠ .ok version := by
  have range : (portion.length < getSizeInBytes earliestSupportedProtocolServerVersion ∨
      portion.length > getSizeInBytes latestKnownProtocolServerVersion) ↔ ¬ (98 ≤ portion.length ∧ portion.length ≤ 99) := by
    rw [show getSizeInBytes earliestSupportedProtocolServerVersion = 98 by decide,
      show getSizeInBytes latestKnownProtocolServerVersion = 99 by decide]
    omega
  have text : ((extractFixedInt 2 portion).2.take serverVersionLength).takeWhile (fun c => decide (c ≠ 0)) =
      versionText portion := rfl
  simp only [make, text, bind_eq_error, raiseIf_eq_error, raiseIf_eq_ok, range, not_not, exists_const]
  constructor
  · rintro ⟨failure,⟨-,rfl⟩ | ⟨allowed,raised | ⟨version,-,⟨-,rfl⟩ | ⟨-,⟨-,rfl⟩ | ⟨-,done⟩⟩⟩⟩,ends⟩
    · cases ends
    · refine ⟨allowed.1,allowed.2,fun version parsed => ?_⟩
      obtain ⟨inner,raised,-⟩ := noexcept_eq_error.mp raised
      rw [parsed] at raised
      cases raised
    · cases ends
    · cases ends
    · cases done
  · rintro ⟨least,most,malformed⟩
    cases parsed : SemanticVersion.parse (versionText portion) with
    | ok version => exact absurd parsed (malformed version)
    | error failure =>
      have raised : getEncodedServerVersion (versionText portion) = .error ⟨.terminate,failure.message⟩ := by
        rw [getEncodedServerVersion, parsed]
        rfl
      exact ⟨_,.inr ⟨⟨least,most⟩,.inl raised⟩,rfl⟩

/-- A post header is decoded safely exactly if its version is a version, or its length is refused before that is looked
    at. -/
theorem decodes_safely_iff (portion : Bytes) : DecodesSafely portion ↔
    portion.length < 98 ∨ 99 < portion.length ∨ ∃ version, SemanticVersion.parse (versionText portion) = .ok version := by
  have terminates := make_terminates portion
  constructor
  · intro safe
    by_contra malformed
    simp only [not_or, not_lt, not_exists] at malformed
    obtain ⟨failure,raised,ends⟩ := terminates.mpr malformed
    exact safe.raised failure raised ends
  · intro condition
    refine ⟨fun failure raised ends => ?_,fun header read => ?_⟩
    · obtain ⟨least,most,malformed⟩ := terminates.mp ⟨failure,raised,ends⟩
      rcases condition with short | long | ⟨version,parsed⟩
      · omega
      · omega
      · exact malformed version parsed
    · obtain ⟨version,readable⟩ := make_readable read
      obtain ⟨bytes,encoded,sized,again⟩ := readable.make_encode
      have length : portion.length = getSizeInBytes version := by
        simp only [make, bind_eq_ok, raiseIf_eq_ok, pure_eq_ok, exists_const, ne_eq, not_not] at read
        obtain ⟨-,other,parsed,sized,-,rfl⟩ := read
        rw [sized, Except.ok.inj (parsed.symm.trans readable.parsed)]
      exact ⟨version,readable.parsed,length,length.trans readable.size,bytes,encoded,sized.trans length.symm,again⟩

/-- A post header of zeros: its version is empty. -/
theorem decodes_terminating : (List.replicate 98 0 : Bytes).length = 98 ∧ versionText (List.replicate 98 0) = [] ∧
    make (List.replicate 98 0) =
      .error ⟨.terminate,"server_version does not have the \"major\" component"⟩ := by decide +kernel

end
end FormatDescriptionPostHeader
end BinlogServer.Events
