import ZMachine.Number
import ZMachine.Instruction.Kind

/-!
# Opcodes

An opcode is a number within its operand-count class, or within the extended
set. Its name, and whether a store variable, a branch or a string follows its
operands, depend on the version for some.
-/

set_option autoImplicit false

namespace ZMachine

/-- An opcode with the form in which it was written. -/
structure Opcode where
  form : Form
  count : OperandCount
  /-- The number within the operand-count class. -/
  number : Byte
  /-- The number within the extended set, for the extended form. -/
  extended : Option Byte := none
  deriving DecidableEq, Repr, Inhabited

namespace Opcode

/-! ## Names -/

/-- The names of the opcodes with two operands, from number 1 on. -/
def namesOfTwo : List String :=
  ["je", "jl", "jg", "dec_chk", "inc_chk", "jin", "test", "or", "and", "test_attr", "set_attr",
    "clear_attr", "store", "insert_obj", "loadw", "loadb", "get_prop", "get_prop_addr",
    "get_next_prop", "add", "sub", "mul", "div", "mod", "call_2s", "call_2n", "set_colour",
    "throw"]

/-- The names of the opcodes with one operand. -/
def namesOfOne (version : Nat) : List String :=
  ["jz", "get_sibling", "get_child", "get_parent", "get_prop_len", "inc", "dec", "print_addr",
    "call_1s", "remove_obj", "print_obj", "ret", "jump", "print_paddr", "load",
    if version ≤ 4 then "not" else "call_1n"]

/-- The names of the opcodes without operands. -/
def namesOfZero (version : Nat) : List String :=
  ["rtrue", "rfalse", "print", "print_ret", "nop", "save", "restore", "restart", "ret_popped",
    if version ≤ 4 then "pop" else "catch", "quit", "new_line", "show_status", "verify",
    "extended", "piracy"]

/-- The names of the opcodes with any number of operands. -/
def namesOfVar (version : Nat) : List String :=
  [if version ≤ 3 then "call" else "call_vs", "storew", "storeb", "put_prop",
    if version ≤ 4 then "sread" else "aread", "print_char", "print_num", "random", "push", "pull",
    "split_window", "set_window", "call_vs2", "erase_window", "erase_line", "set_cursor",
    "get_cursor", "set_text_style", "buffer_mode", "output_stream", "input_stream",
    "sound_effect", "read_char", "scan_table", "not", "call_vn", "call_vn2", "tokenise",
    "encode_text", "copy_table", "print_table", "check_arg_count"]

/-- The names of the extended opcodes; numbers 14 and 15 have none. -/
def namesOfExtended : List String :=
  ["save", "restore", "log_shift", "art_shift", "set_font", "draw_picture", "picture_data",
    "erase_picture", "set_margins", "save_undo", "restore_undo", "print_unicode",
    "check_unicode", "set_true_colour", "unknown_ext", "unknown_ext", "move_window",
    "window_size", "window_style", "get_wind_prop", "scroll_window", "pop_stack", "read_mouse",
    "mouse_window", "push_stack", "put_wind_prop", "print_form", "make_menu", "picture_table",
    "buffer_screen"]

/-- The name of an opcode. -/
def name (o : Opcode) (version : Nat) : String :=
  if o.form = .extended then
    match o.extended with
    | some n => namesOfExtended.getD n.toNat "unknown_ext"
    | none => "unknown_ext"
  else
    let n := o.number.toNat
    match o.count with
    | .zero => (namesOfZero version).getD n "unknown_0op"
    | .one => (namesOfOne version).getD n "unknown_1op"
    | .two => if n = 0 then "unknown_2op" else namesOfTwo.getD (n - 1) "unknown_2op"
    | .var => (namesOfVar version).getD n "unknown_var"

/-! ## What follows the operands -/

/-- Whether a store variable follows the operands. -/
def stores (o : Opcode) (version : Nat) : Bool :=
  if o.form = .extended then
    match o.extended with
    | some n => n ≤ 0x04 || n == 0x09 || n == 0x0A || n == 0x0C || n == 0x13 || n == 0x1D
    | none => false
  else
    let n := o.number.toNat
    match o.count with
    | .two => n == 0x08 || n == 0x09 || (0x0F ≤ n && n ≤ 0x19)
    | .one =>
        (0x01 ≤ n && n ≤ 0x04) || n == 0x08 || n == 0x0E || (n == 0x0F && version ≤ 4)
    | .zero => ((n == 0x05 || n == 0x06) && version == 4) || (n == 0x09 && 5 ≤ version)
    | .var =>
        n == 0x00 || n == 0x07 || n == 0x0C || (0x16 ≤ n && n ≤ 0x18) ||
          (n == 0x04 && 5 ≤ version) || (n == 0x09 && version == 6)

/-- Whether a branch follows. -/
def branches (o : Opcode) (version : Nat) : Bool :=
  if o.form = .extended then
    match o.extended with
    | some n => n == 0x06 || n == 0x18 || n == 0x1B
    | none => false
  else
    let n := o.number.toNat
    match o.count with
    | .two => (0x01 ≤ n && n ≤ 0x07) || n == 0x0A
    | .one => n ≤ 0x02
    | .zero => ((n == 0x05 || n == 0x06) && version ≤ 3) || n == 0x0D || n == 0x0F
    | .var => n == 0x17 || n == 0x1F

/-- Whether a string follows. -/
def hasText (o : Opcode) : Bool :=
  o.form == .short && o.count == .zero && (o.number == 0x02 || o.number == 0x03)

/-- Whether the operand types take two bytes. -/
def hasTwoTypeBytes (o : Opcode) : Bool :=
  o.count == .var && (o.number == 0x0C || o.number == 0x1A)

end Opcode

end ZMachine
