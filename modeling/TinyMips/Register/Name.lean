import TinyMips.Numeral.Literal

/-!
# Register names

The machine has 32 registers. Source text may name one by its index (`8`), by `r` and its index
(`r8`), or by its conventional alias (`t0`), in any letter case and with an optional `$` in front.
-/

namespace TinyMips

/-- A register index. -/
abbrev Reg := Fin 32

namespace Reg

/-- The register that always reads zero. -/
def zero : Reg := 0

/-- The register that a linking jump writes. -/
def link : Reg := 31

/-- The conventional aliases, in register order. -/
def aliases : Vector String 32 :=
  #v["zero", "at", "v0", "v1", "a0", "a1", "a2", "a3", "t0", "t1", "t2", "t3", "t4", "t5", "t6",
    "t7", "s0", "s1", "s2", "s3", "s4", "s5", "s6", "s7", "t8", "t9", "k0", "k1", "gp", "sp", "fp",
    "ra"]

/-- The conventional alias of a register. -/
def name (r : Reg) : String :=
  aliases[r]

/-- The alias of any index; one that is no register's is shown as `r??`. -/
def nameOfIndex (index : Nat) : String :=
  if h : index < 32 then name ⟨index, h⟩ else "r??"

/-- Every register, in order. -/
def all : List Reg :=
  List.finRange 32

/-- The register of a run of decimal digits whose value is below 32. -/
def ofIndex? (digits : List Char) : Option Reg :=
  (Numeral.value? 10 digits).bind fun n => if h : n < 32 then some ⟨n, h⟩ else none

/-- The register of `r` and a decimal index. -/
def ofNumbered? : List Char → Option Reg
  | 'r' :: digits => ofIndex? digits
  | _ => none

/-- The register of an alias; `s8` is a second alias of `r30`. -/
def ofAlias? (word : List Char) : Option Reg :=
  if word = ['s', '8'] then some 30
  else all.find? fun r => (name r).toList = word

/-- The register that a token names, if any. -/
def ofToken? (token : List Char) : Option Reg :=
  let body := match Text.lower (Text.trim token) with
    | '$' :: rest => rest
    | body => body
  (ofIndex? body).or ((ofNumbered? body).or (ofAlias? body))

end Reg

end TinyMips
