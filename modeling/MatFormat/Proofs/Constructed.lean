/-
This file says which arrays can be built with the operations on arrays, starting from
nothing, in any number of steps and in any order. Each step below is one such operation that
succeeded. Since every operation leaves arrays valid, every array that can be built is valid
at every depth.
-/

import MatFormat.Proofs.Valid

namespace MatFormat

/-- The arrays that can be built. An array inside another one can be changed in place into
any array that can be built, and can be taken out. -/
inductive MatArray.Constructed : MatArray → Prop where
  | numbers {numericClass : NumericClass} {name : String} {dimensions : List Nat}
      {real : List numericClass.Value} {array : NumericArray numericClass}
      (built : NumericArray.ofList name dimensions real = .ok array) :
      Constructed (.numeric _ array)
  | parts {numericClass : NumericClass} {name : String} {dimensions : List Nat}
      {real imag : List numericClass.Value} {array : NumericArray numericClass}
      (built : NumericArray.ofParts name dimensions real imag = .ok array) :
      Constructed (.numeric _ array)
  | zeros {numericClass : NumericClass} {name : String} {dimensions : List Nat}
      {array : NumericArray numericClass} (built : NumericArray.zeros name dimensions = .ok array) :
      Constructed (.numeric _ array)
  | numberColumns {numericClass : NumericClass} {name : String}
      {values : List numericClass.Value} {rows : Nat} {array : NumericArray numericClass}
      (built : NumericArray.ofColumns name values rows = .ok array) :
      Constructed (.numeric _ array)
  | numberRows {numericClass : NumericClass} {name : String}
      {rows : List (List numericClass.Value)} {array : NumericArray numericClass}
      (built : NumericArray.ofRows name rows = .ok array) : Constructed (.numeric _ array)
  | putReal {numericClass : NumericClass} {array after : NumericArray numericClass} {index : Nat}
      {value : numericClass.Value} (before : Constructed (.numeric _ array))
      (put : array.putReal? index value = some after) : Constructed (.numeric _ after)
  | putImag {numericClass : NumericClass} {array after : NumericArray numericClass} {index : Nat}
      {value : numericClass.Value} (before : Constructed (.numeric _ array))
      (put : array.putImag? index value = some after) : Constructed (.numeric _ after)
  | setReal {numericClass : NumericClass} {array after : NumericArray numericClass}
      {row column : Nat} {value : numericClass.Value} (before : Constructed (.numeric _ array))
      (put : array.set? row column value = some after) : Constructed (.numeric _ after)
  | setImag {numericClass : NumericClass} {array after : NumericArray numericClass}
      {row column : Nat} {value : numericClass.Value} (before : Constructed (.numeric _ array))
      (put : array.setImag? row column value = some after) : Constructed (.numeric _ after)
  | units {name : String} {dimensions : List Nat} {units : List CodeUnit} {array : CharArray}
      (built : CharArray.ofUnits name dimensions units = .ok array) : Constructed (.char array)
  | text {name text : String} {array : CharArray}
      (built : CharArray.ofText name text = .ok array) : Constructed (.char array)
  | textRows {name : String} {texts : List String} {array : CharArray}
      (built : CharArray.ofRows name texts = .ok array) : Constructed (.char array)
  | setUnit {array after : CharArray} {row column : Nat} {unit : CodeUnit}
      (before : Constructed (.char array)) (put : array.set? row column unit = some after) :
      Constructed (.char after)
  | unsetCells {slotSize : Nat} {name : String} {dimensions : List Nat}
      {array : CellArray MatArray} (built : CellArray.unset slotSize name dimensions = .ok array) :
      Constructed (.cell array)
  | cells {name : String} {dimensions : List Nat} {cells : List (Option MatArray)}
      {array : CellArray MatArray} (given : ∀ child, some child ∈ cells → Constructed child)
      (built : CellArray.ofArrays name dimensions cells = .ok array) : Constructed (.cell array)
  | storeCell {array after : CellArray MatArray} {index : Nat} {child : MatArray}
      {previous : Option MatArray} (before : Constructed (.cell array))
      (given : Constructed child) (stored : array.store index child = .ok (previous, after)) :
      Constructed (.cell after)
  | takeCell {array : CellArray MatArray} (before : Constructed (.cell array)) (index : Nat) :
      Constructed (.cell (array.take index).2)
  | changeCell {array after : CellArray MatArray} {index : Nat} {child : MatArray}
      (before : Constructed (.cell array)) (given : Constructed child)
      (changed : array.modify? index (fun _ => child) = some after) : Constructed (.cell after)
  | struct {name : String} {dimensions : List Nat} {array : StructArray MatArray}
      (built : StructArray.create name dimensions = .ok array) : Constructed (.struct array)
  | object {name className : String} {dimensions : List Nat} {array : StructArray MatArray}
      (built : StructArray.createObject name className dimensions = .ok array) :
      Constructed (.struct array)
  | addField {slotSize : Nat} {array after : StructArray MatArray} {name : String}
      (before : Constructed (.struct array)) (added : array.addField slotSize name = .ok after) :
      Constructed (.struct after)
  | storeSlot {slotSize : Nat} {array after : StructArray MatArray} {name : String} {index : Nat}
      {child : MatArray} {previous : Option MatArray} (before : Constructed (.struct array))
      (given : Constructed child)
      (stored : array.store slotSize name index child = .ok (previous, after)) :
      Constructed (.struct after)
  | changeSlot {array after : StructArray MatArray} {name : String} {index : Nat}
      {child : MatArray} (before : Constructed (.struct array)) (given : Constructed child)
      (changed : array.modify? name index (fun _ => child) = some after) :
      Constructed (.struct after)
  | removeField {array after : StructArray MatArray} {name : String}
      {slots : List (Option MatArray)} (before : Constructed (.struct array))
      (removed : array.removeField? name = some (slots, after)) : Constructed (.struct after)
  | unsetSparse {name : String} {rows columns : Nat} {array : SparseArray}
      (built : SparseArray.empty name rows columns = .ok array) : Constructed (.sparse array)
  | sparseColumns {name : String} {rows columns : Nat} {columnPointers rowIndices : List Nat}
      {real : List Double} {imag : Option (List Double)} {array : SparseArray}
      (built : SparseArray.ofColumns name rows columns columnPointers rowIndices real imag =
        .ok array) : Constructed (.sparse array)
  | entries {name : String} {rows columns : Nat} {complex : Bool} {entries : List Entry}
      {array : SparseArray}
      (built : SparseArray.ofEntries name rows columns complex entries = .ok array) :
      Constructed (.sparse array)
  | capacity {array : SparseArray} (before : Constructed (.sparse array)) (capacity : Nat) :
      Constructed (.sparse { array with capacity })
  | putSparseReal {array after : SparseArray} {place : Nat} {value : Double}
      (before : Constructed (.sparse array)) (put : array.putReal? place value = some after) :
      Constructed (.sparse after)
  | putSparseImag {array after : SparseArray} {place : Nat} {value : Double}
      (before : Constructed (.sparse array)) (put : array.putImag? place value = some after) :
      Constructed (.sparse after)
  | rename {array : MatArray} (before : Constructed array) (name : String) :
      Constructed (array.rename name)
  | setGlobal {array : MatArray} (before : Constructed array) (global : Bool) :
      Constructed (array.setGlobal global)
  | setLogical {array : MatArray} (before : Constructed array) (logical : Bool) :
      Constructed (array.setLogical logical)
  | takeOut {array child : MatArray} (before : Constructed array)
      (member : child ∈ array.children) : Constructed child

namespace MatArray

theorem everywhere_of_leaf {property : MatArray → Prop} {array : MatArray}
    (here : property array) (leaf : array.children = []) : array.Everywhere property := by
  refine .intro array here fun child member => ?_
  rw [leaf] at member
  cases member

/-- Every array that can be built is valid at every depth. -/
theorem Constructed.valid {array : MatArray} (constructed : array.Constructed) :
    array.Everywhere Valid := by
  induction constructed with
  | numbers built => exact everywhere_of_leaf (NumericArray.valid_ofList built) rfl
  | parts built => exact everywhere_of_leaf (NumericArray.valid_ofParts built) rfl
  | zeros built => exact everywhere_of_leaf (NumericArray.valid_zeros built) rfl
  | numberColumns built => exact everywhere_of_leaf (NumericArray.valid_ofColumns built) rfl
  | numberRows built => exact everywhere_of_leaf (NumericArray.valid_ofRows built) rfl
  | putReal before put valid =>
    exact everywhere_of_leaf (NumericArray.valid_putReal? valid.here put) rfl
  | putImag before put valid =>
    exact everywhere_of_leaf (NumericArray.valid_putImag? valid.here put) rfl
  | setReal before put valid =>
    exact everywhere_of_leaf (NumericArray.valid_set? valid.here put) rfl
  | setImag before put valid =>
    exact everywhere_of_leaf (NumericArray.valid_setImag? valid.here put) rfl
  | units built => exact everywhere_of_leaf (CharArray.valid_ofUnits built) rfl
  | text built => exact everywhere_of_leaf (CharArray.valid_ofText built) rfl
  | textRows built => exact everywhere_of_leaf (CharArray.valid_ofRows built) rfl
  | setUnit before put valid => exact everywhere_of_leaf (CharArray.valid_set? valid.here put) rfl
  | unsetCells built => exact CellArray.valid_unset built
  | cells given built valid => exact CellArray.valid_ofArrays valid built
  | storeCell before given stored valid childValid =>
    exact CellArray.valid_store valid childValid stored
  | takeCell before index valid => exact CellArray.valid_take valid index
  | changeCell before given changed valid childValid =>
    exact CellArray.valid_modify? valid childValid changed
  | struct built => exact StructArray.valid_create built
  | object built => exact StructArray.valid_createObject built
  | addField before added valid => exact StructArray.valid_addField valid added
  | storeSlot before given stored valid childValid =>
    exact StructArray.valid_store valid childValid stored
  | changeSlot before given changed valid childValid =>
    exact StructArray.valid_modify? valid childValid changed
  | removeField before removed valid => exact StructArray.valid_removeField? valid removed
  | unsetSparse built => exact everywhere_of_leaf (SparseArray.valid_empty built) rfl
  | sparseColumns built => exact everywhere_of_leaf (SparseArray.valid_ofColumns built) rfl
  | entries built => exact everywhere_of_leaf (SparseArray.valid_ofEntries built) rfl
  | capacity before capacity valid =>
    exact everywhere_of_leaf (SparseArray.valid_withCapacity valid.here capacity) rfl
  | putSparseReal before put valid =>
    exact everywhere_of_leaf (SparseArray.valid_putReal? valid.here put) rfl
  | putSparseImag before put valid =>
    exact everywhere_of_leaf (SparseArray.valid_putImag? valid.here put) rfl
  | rename before name valid =>
    exact everywhere_modifyInfo valid (fun _ => rfl) fun _ => rfl
  | setGlobal before global valid =>
    exact everywhere_modifyInfo valid (fun _ => rfl) fun _ => rfl
  | setLogical before logical valid =>
    exact everywhere_modifyInfo valid (fun _ => rfl) fun _ => rfl
  | takeOut before member valid => exact valid.child member

end MatArray

end MatFormat
