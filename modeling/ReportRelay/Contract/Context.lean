import ReportRelay.Contract.Digest

/-!
# Report contexts

The epoch and round in which a report was made, under which configuration. A contract takes the context as
three words of 32 bytes: the digest, epoch and round at the end of a word, and the extra hash.
-/

namespace ReportRelay

structure ReportContext where
  digest : ConfigDigest
  epoch : UInt32
  round : UInt8
  extraHash : Bytes32
  deriving DecidableEq, Repr

namespace ReportContext

def bytes (context : ReportContext) : Bytes :=
  context.digest.bytes ++ .zeros 27 ++ .bigEndian 4 context.epoch.toNat ++ [context.round]
    ++ context.extraHash.val

end ReportContext

/-- The latest report that a contract has accepted. -/
structure Transmission where
  digest : ConfigDigest
  epoch : UInt32
  round : UInt8
  answer : Int
  /-- Seconds since 1970. -/
  timestamp : Int
  deriving DecidableEq, Repr

end ReportRelay
