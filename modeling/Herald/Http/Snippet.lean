import Herald.Http.Exchange

/-! The part of a response that a report of a bad status shows: the start of its body as text, without
blanks around it. -/
namespace Herald.Http

open Herald.Text

def keptBytes : Nat := 512

def gather : List UInt8 → List (List UInt8) → List UInt8
  | kept, [] => kept
  | kept, piece :: rest => if keptBytes ≤ kept.length then kept else gather (kept ++ piece) rest

def snippet? (body : List (List UInt8)) : Option String :=
  let text := trim (Utf8.decodeLossy ((gather [] body).take keptBytes))
  if text = [] then none else some (String.ofList text)

/-- A response with a status of success, or the failure that the status is. -/
def Response.ensureSuccess (r : Response) (channel : Channel) : Except Failure Response :=
  if r.isSuccess then .ok r else .error (.status channel r.status (snippet? r.body))

theorem take_gather (kept : List UInt8) (body : List (List UInt8)) :
    (gather kept body).take keptBytes = (kept ++ body.flatten).take keptBytes := by
  induction body generalizing kept with
  | nil => simp [gather]
  | cons piece rest ih =>
    unfold gather
    split
    · next full => simp [List.take_append_of_le_length full]
    · rw [ih]; simp

end Herald.Http
