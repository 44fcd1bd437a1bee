import ReportQuorum.Roster

/-!
# The fast lane

At the beginning of a frame only the fast lane may report: as many members as the quorum asks for,
in neighbouring seats, the row being closed to a circle. From frame to frame the lane moves on by
one seat.

## Main definitions

* `Roster.isFastLane`: whether a position is in the lane of a frame
* `Roster.fastLane`: the members in the lane of a frame
-/

namespace ReportQuorum.Roster

/-- Whether a position is in the fast lane of the frame with an index. The lane begins at the index
modulo the number of seats; a quorum that covers the roster puts every seat into it. The sums are
sums of words. -/
def isFastLane (r : Roster) (position frameIndex quorum : Word) : Bool :=
  let total := r.count
  if total ≤ quorum then position < total
  else
    let start := frameIndex % total
    let pastEnd := start + quorum
    -- The second part is the piece of the lane that goes around the end of the row.
    (start ≤ position && position < pastEnd) || position + total < pastEnd

/-- The members in the fast lane of the frame with an index, in the order of their seats. -/
def fastLane (r : Roster) (frameIndex quorum : Word) : List Address :=
  (r.members.zipIdx.filter fun (_, i) => r.isFastLane (UInt64.ofNat i) frameIndex quorum).map (·.1)

end ReportQuorum.Roster
