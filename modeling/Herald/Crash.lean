/-! Computations that have no value: a sum, a point in time or a pool that is too large to express. They
end whatever was under way, without a failure that could be reported. -/
namespace Herald

inductive Crash
  | quantity
  | time
  | slots
  deriving DecidableEq, Repr

def Crash.message : Crash → String
  | .quantity => "attempt to add with overflow"
  | .time => "overflow when adding duration to instant"
  | .slots => "a semaphore may not have more than MAX_PERMITS permits (2305843009213693951)"

end Herald
