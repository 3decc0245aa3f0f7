import AlertFilter.Store.Exchange

/-!
# Messages on the wire

A request goes out as one message that asks the server to close the connection behind its answer.
The answer is then all that comes back: a status line, fields, and a body that comes as it is, up to
a stated length, or in chunks.
-/

namespace AlertFilter

namespace Request

def fields (r : Request) : List (String × String) :=
  [("host", r.address.authority), ("accept", "*/*"), ("connection", "close")] ++
    match r.body with
    | some body =>
      [("content-type", "application/json"), ("content-length", toString body.utf8ByteSize)]
    | none => []

def message (r : Request) : String :=
  r.method.name ++ " " ++ r.address.target ++ " HTTP/1.1\r\n" ++
    String.join (r.fields.map fun f => f.1 ++ ": " ++ f.2 ++ "\r\n") ++ "\r\n" ++ r.body.getD ""

end Request

/-- What stands before a separator, and what stands behind it. -/
def cutAt? (separator : List UInt8) : List UInt8 → Option (List UInt8 × List UInt8)
  | [] => none
  | b :: rest =>
    if separator.isPrefixOf (b :: rest) then some ([], (b :: rest).drop separator.length)
    else (cutAt? separator rest).map fun (before, behind) => (b :: before, behind)

theorem length_of_cutAt? {separator bs before behind : List UInt8} (h0 : separator ≠ [])
    (h : cutAt? separator bs = some (before, behind)) : behind.length < bs.length := by
  induction bs generalizing before with
  | nil => simp [cutAt?] at h
  | cons b rest ih =>
    rw [cutAt?] at h
    split at h
    · have := List.length_pos_iff.2 h0
      simp only [Option.some.injEq, Prod.mk.injEq] at h
      rw [← h.2, List.length_drop, List.length_cons]
      omega
    · simp only [Option.map_eq_some_iff, Prod.mk.injEq, Prod.exists] at h
      obtain ⟨before, behind, hrest, -, rfl⟩ := h
      exact Nat.lt_succ_of_lt (ih hrest)

def asciiText (bs : List UInt8) : String := String.ofList (bs.map fun b => Char.ofNat b.toNat)

def lineEnd : List UInt8 := [13, 10]

/-- The number that a row of hexadecimal digits stands for. -/
def hexNumber? (cs : List Char) : Option Nat :=
  if cs.isEmpty then none
  else cs.foldlM (fun n c =>
    if c.isDigit then some (16 * n + (c.toNat - 48))
    else if 'a' ≤ c ∧ c ≤ 'f' then some (16 * n + (c.toNat - 87))
    else if 'A' ≤ c ∧ c ≤ 'F' then some (16 * n + (c.toNat - 55))
    else none) 0

/-- The content of chunks; each begins with a line that holds its length, the last is empty. -/
def joinChunks? (bs : List UInt8) : Option (List UInt8) :=
  match _ : cutAt? lineEnd bs with
  | none => none
  | some (line, rest) =>
    match hexNumber? ((asciiText line).toList.takeWhile fun c => c ≠ ';' ∧ c ≠ ' ') with
    | none => none
    | some 0 => some []
    | some n =>
      if rest.length < n + 2 then none
      else (joinChunks? (rest.drop (n + 2))).map (rest.take n ++ ·)
termination_by bs.length
decreasing_by
  have := length_of_cutAt? (List.cons_ne_nil 13 [10]) ‹_›
  rw [List.length_drop]
  omega

/-- A field of an answer, its name in lower case. -/
def readField? (line : String) : Option (String × String) :=
  match line.toList.dropWhile (· ≠ ':') with
  | [] => none
  | _ :: value =>
    some (String.ofList ((line.toList.takeWhile (· ≠ ':')).map Char.toLower),
      Text.trim (String.ofList value))

/-- The body behind the fields, if it is complete. -/
def readBody? (status : Nat) (fields : List (String × String)) (bs : List UInt8) :
    Option (List UInt8) :=
  if status = 204 ∨ status = 304 then some []
  else if fields.lookup "transfer-encoding" = some "chunked" then joinChunks? bs
  else match (fields.lookup "content-length").bind Decimal.readNat? with
    | some n => if bs.length < n then none else some (bs.take n)
    | none => some bs

/-- The answer that came from an address, as bytes. Without a head it is none. -/
def Reply.ofBytes (url : String) (bs : List UInt8) : Reply :=
  match cutAt? (lineEnd ++ lineEnd) bs with
  | none => .failure (.unanswered url)
  | some (head, rest) =>
    let lines := (asciiText head).splitOn "\r\n"
    match ((lines.headD "").splitOn " ")[1]?.bind Decimal.readNat? with
    | none => .failure (.unanswered url)
    | some status =>
      match readBody? status (lines.tail.filterMap readField?) rest with
      | none => .failure (.unreadable url)
      | some body =>
        match String.fromUTF8? ⟨body.toArray⟩ with
        | some text => .answer status text
        | none => .failure (.unreadable url)

end AlertFilter
