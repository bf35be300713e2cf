import BinlogServer.App.Restarts

/-!
# What restart points denote

At the start of a session the source is told what is held: by the gtids that are recorded, or by a file and a position in
it. The position counts what is in the buffer and the gtids do not, so the two modes differ in what the end of a stream
may leave behind.
-/

namespace BinlogServer.App
open ByteString Util Gtids Events Store
open Store.Storage (Holds)

namespace Session

section
variable [Externals] {admits : Visit → Prop} {s : Storage} {config : Config} {serverVersion : Nat} {gtidPurged : Bytes}
  {clock calendar : Nat → Nat} {start : Session} {files : List LocalFile} {point : RestartPoint}

/-- Where the last session has not been ended by the end of the stream, nothing is left in the buffer. -/
theorem Lives.unbuffered (lives : Lives admits s) (lost : ∀ visit, admits visit → visit.endOfStream = false) :
    Unbuffered s := by
  cases lives with
  | start constructed => exact .constructed constructed
  | @session s t lives config serverVersion gtidPurged clock calendar point trace first last endOfStream u proper connected
      processes admitted disconnected =>
    obtain ⟨files,holds,events⟩ := lives.holds
    obtain ⟨files,filed⟩ := (Filed.connect holds events proper connected).run processes
    obtain rfl : endOfStream = false := lost _ admitted
    exact disconnect_empties filed.holds disconnected
  | restart lives constructed =>
    obtain ⟨files,holds,-⟩ := lives.holds
    exact .restarted holds constructed
  | stopped lives proper connected processes admitted constructed =>
    obtain ⟨files,holds,events⟩ := lives.holds
    obtain ⟨files,filed⟩ := (Filed.connect holds events proper connected).run processes
    exact .restarted filed.holds constructed

end

section
attribute [local instance] FlatJson.externals

end
end Session
end BinlogServer.App
