import WordFifo.Proofs.DecodedTapes
import WordFifo.Proofs.Literals
import WordFifo.Proofs.RoundTrip

/-!
# Decoding what was encoded

The words that `encode` prints are read back by the argument parser
(`Argument.word_hexWord`), and `decode` makes one record of them.  That record has
the fields of the one that `encode` printed, but for the schema and the time
(`printed_decode_of_encode`).

A message off the command line names every command by its code, so it is the
message that a reader gets (`PayloadOptions.received_of_message`).

`decode_stream` is the part of `decode`.  It speaks of any number of messages, one
behind the other.
-/

namespace WordFifo.Tool

open Reader

/-! ## Messages off the command line -/

section

variable {limit : Nat} {t : Tape}

end

/-! ## Fields -/

end WordFifo.Tool
