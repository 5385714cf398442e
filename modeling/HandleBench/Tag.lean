/-!
# Tags

A tag is the 64-bit word that travels with every handle. Its eight most significant bits say which
class of thing the handle stands for; the other 56 bits belong to the backends, which tell their
payloads apart by them. Both tests on a tag are subset tests on its bits: a tag *has a class* when
it carries every bit of the class, and it *touches the reserved bits* when it carries any of them.
-/

namespace HandleBench

/-- The word of bits that says what a handle stands for. -/
abbrev Tag := UInt64

namespace Tag

/-- The class bit of engines. -/
def engine : Tag := 0x8000000000000000

/-- The class bit of benchmark instances. -/
def benchmark : Tag := 0x4000000000000000

/-- The class bit of objects: payloads that a backend minted through a session. -/
def object : Tag := 0x2000000000000000

/-- The class bit of catalog entries. Benchmark instances carry it as well. -/
def descriptor : Tag := 0x1000000000000000

/-- The class bits of every benchmark handle. -/
def instanceBits : Tag := benchmark ||| descriptor

/-- The bits that backends must leave alone. -/
def reserved : Tag := 0xFF00000000000000

/-- Every bit of `bits` is in `tag`. -/
def hasClass (tag bits : Tag) : Bool := tag &&& bits == bits

/-- Some reserved bit is in `tag`. -/
def touchesReserved (tag : Tag) : Bool := tag &&& reserved != 0

end Tag

end HandleBench
