/-
This file reads whole files. A file is read only if every element of it can be read; the
arrays that come before a fault are to be had from the stream.
-/

import MatFormat.File.Basic
import MatFormat.Stream

namespace MatFormat

/-- Read a file with those of its arrays whose names are wanted. -/
def MatFile.read (inflate : Inflater) (bytes : List UInt8) (wanted : String → Bool) :
    Reading MatFile := do
  let (header, stream) ← openStream bytes
  let arrays ← stream.arrays inflate wanted
  pure (MatFile.ofArrays header arrays)

end MatFormat
