/-
This file lists what the reader of a file remarks on its way: some remarks follow its work,
others warn of oddities that it tolerates. A reading is a result together with the remarks
made up to it, in order; the result of a sequence of readings never depends on the remarks.
-/

import MatFormat.Array.Basic
import MatFormat.ByteOrder

namespace MatFormat

/-- A remark of the reader. -/
inductive Notice where
  | header (description : String) (order : ByteOrder)
  | decoded (name : String) (arrayClass : ArrayClass) (dimensions : List Nat)
  | filtered (name : String)
  | inflated (compressed size offset : Nat)
  | cancelled (offset : Nat)
  | emptyMatrix (offset : Nat)
  | missingPadding (offset missing : Nat)
  | trailingPadding (size : Nat)
  | partialFieldName (size length : Nat)
  | smallCapacity (name : String) (capacity stored : Nat)
deriving DecidableEq, Repr

namespace Notice

/-- Whether the remark is a warning. -/
def isWarning : Notice → Bool
  | header .. | decoded .. | filtered .. | inflated .. | cancelled .. => false
  | _ => true

/-- The text of the remark. -/
def message : Notice → String
  | header description order => s!"header: {quote description}, {order.name}"
  | decoded name arrayClass dimensions =>
    s!"decoded '{name}': {arrayClass.name} {bracketed (dimensions.map toString)}"
  | filtered name => s!"skipping filtered array '{name}'"
  | inflated compressed size offset =>
    s!"inflated {compressed} bytes into {size} at offset {offset}"
  | cancelled offset => s!"decoding cancelled at offset {offset}"
  | emptyMatrix offset => s!"empty matrix element at offset {offset}"
  | missingPadding offset missing =>
    s!"element at offset {offset} ends {missing} padding bytes short of the buffer end"
  | trailingPadding size => s!"ignoring {size} trailing padding bytes"
  | partialFieldName size length =>
    s!"field names span {size} bytes, not a multiple of {length}"
  | smallCapacity name capacity stored =>
    s!"sparse '{name}' declares nzmax {capacity} below its {stored} values"

end Notice

/-- A result and the remarks made up to it, in order. -/
structure Reading (Value : Type) where
  notices : List Notice
  result : Except Error Value

namespace Reading

/-- Make a remark. -/
def note (notice : Notice) : Reading Unit := ⟨[notice], .ok ()⟩

/-- A result without remarks. -/
def ofExcept {Value : Type} (result : Except Error Value) : Reading Value := ⟨[], result⟩

/-- Go on with the value of a reading, if it has one. -/
def andThen {Value Next : Type} (reading : Reading Value) (continuation : Value → Reading Next) :
    Reading Next :=
  match reading.result with
  | .error error => ⟨reading.notices, .error error⟩
  | .ok value =>
    let next := continuation value
    ⟨reading.notices ++ next.notices, next.result⟩

/-- A reading that goes on whether or not the given one has a value. -/
def attempt {Value : Type} (reading : Reading Value) : Reading (Except Error Value) :=
  ⟨reading.notices, .ok reading.result⟩

instance : Monad Reading where
  pure value := ⟨[], .ok value⟩
  bind := andThen

instance : MonadExceptOf Error Reading where
  throw error := ⟨[], .error error⟩
  tryCatch reading handler :=
    match reading.result with
    | .ok _ => reading
    | .error error =>
      let next := handler error
      ⟨reading.notices ++ next.notices, next.result⟩

instance : MonadLift (Except Error) Reading := ⟨ofExcept⟩

variable {Value Next : Type}

@[simp] theorem result_pure (value : Value) : (pure value : Reading Value).result = .ok value := rfl

@[simp] theorem result_note (notice : Notice) : (note notice).result = .ok () := rfl

@[simp] theorem result_attempt (reading : Reading Value) :
    reading.attempt.result = .ok reading.result := rfl

@[simp] theorem result_bind (reading : Reading Value) (continuation : Value → Reading Next) :
    (reading >>= continuation).result =
      reading.result >>= fun value => (continuation value).result := by
  change (andThen reading continuation).result = _
  unfold andThen
  cases reading.result <;> rfl

end Reading

end MatFormat
