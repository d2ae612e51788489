import Mathlib.Data.BitVec

/-!
# Identifiers

Mirror of the part of `parties/types.h` that the modules below share.
-/

namespace Parties

/-- Byte strings (`std::vector<uint8_t>`). -/
abbrev Bytes := List UInt8

abbrev UserId := BitVec 32

abbrev ChannelId := BitVec 32

/-- A video stream: an owner and one of its sources. -/
abbrev StreamId := BitVec 32

/-- Lists of identifiers are searched by equality. -/
instance UserId.lawfulBEq : LawfulBEq UserId := inferInstance

end Parties
