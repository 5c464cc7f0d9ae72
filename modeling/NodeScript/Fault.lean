/-!
# Faults

Why an evaluation or a host operation failed, with the stable number and the text that the host
reports.
-/
namespace NodeScript

inductive Fault where
  | invalidExpression | localOutOfRange | globalOutOfRange | doubleOutOfRange
  | tooDeep | invalidOpcode | codeOverrun
  | roleOutOfRange | stringOutOfRange | invalidNumberFormat | functionOutOfRange
  | expectedBuffer | expectedRole | expectedString | expectedMap
  | unimplemented
  deriving DecidableEq, Inhabited

namespace Fault

def all : List Fault :=
  [.invalidExpression, .localOutOfRange, .globalOutOfRange, .doubleOutOfRange,
    .tooDeep, .invalidOpcode, .codeOverrun,
    .roleOutOfRange, .stringOutOfRange, .invalidNumberFormat, .functionOutOfRange,
    .expectedBuffer, .expectedRole, .expectedString, .expectedMap,
    .unimplemented]

def code : Fault → Nat
  | .invalidExpression => 60104
  | .localOutOfRange => 60105
  | .globalOutOfRange => 60106
  | .doubleOutOfRange => 60107
  | .tooDeep => 60108
  | .invalidOpcode => 60109
  | .codeOverrun => 60110
  | .roleOutOfRange => 60111
  | .stringOutOfRange => 60112
  | .invalidNumberFormat => 60113
  | .functionOutOfRange => 60114
  | .expectedBuffer => 60125
  | .expectedRole => 60126
  | .expectedString => 60127
  | .expectedMap => 60128
  | .unimplemented => 60129

def ofCode? (code : Nat) : Option Fault := all.find? fun fault => fault.code == code

def message : Fault → String
  | .invalidExpression => "invalid expression"
  | .localOutOfRange => "local index out of range"
  | .globalOutOfRange => "global index out of range"
  | .doubleOutOfRange => "float literal index out of range"
  | .tooDeep => "expression nested too deep"
  | .invalidOpcode => "invalid opcode"
  | .codeOverrun => "bytecode overrun"
  | .roleOutOfRange => "role index out of range"
  | .stringOutOfRange => "string index out of range"
  | .invalidNumberFormat => "invalid number format"
  | .functionOutOfRange => "function index out of range"
  | .expectedBuffer => "buffer expected"
  | .expectedRole => "role expected"
  | .expectedString => "string expected"
  | .expectedMap => "map expected"
  | .unimplemented => "not implemented"

end Fault
end NodeScript
