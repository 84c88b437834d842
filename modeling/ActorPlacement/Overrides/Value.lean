import ActorPlacement.Json.Reader
import ActorPlacement.Options.Basic

/-!
# Override values

What a caller may put in place of a class's option, and how JSON says it.
-/

namespace ActorPlacement

/-- A value that overrides an option. -/
inductive OptionValue (Q : Type) [Quantity Q] where
  | real (value : Q)
  | whole (value : Int)
  | text (value : String)
  | resources (bundle : Bundle Q)
  | handle (handle : Handle Q)
  /-- Clears an option that may be unset. -/
  | unset

namespace OptionValue

variable {Q : Type} [Quantity Q]

/-- The kind of a value. -/
def kind : OptionValue Q → ValueKind
  | real _ => .real
  | whole _ => .whole
  | text _ => .text
  | resources _ => .resources
  | handle _ => .handle
  | unset => .unset

/-- Whether a whole number fits a signed 64-bit word. -/
def fitsWord (n : Int) : Bool := decide (-(UInt64.size / 2 : Nat) ≤ n) && decide (n < (UInt64.size / 2 : Nat))

/-- The quantity that a JSON number writes. -/
def quantityOfTree? : Tree Q → Option Q
  | .whole n => some (Quantity.ofInt n)
  | .real x => some x
  | _ => none

/-- The bundle that the entries of a JSON object make, each of which has to be a number. -/
def bundleOfEntries : List (String × Tree Q) → Except (OptionFault Q) (Bundle Q)
  | entries => go NameMap.empty entries
where
  /-- Insert the entries one after the other. -/
  go (bundle : Bundle Q) : List (String × Tree Q) → Except (OptionFault Q) (Bundle Q)
    | [] => .ok bundle
    | (name, value) :: rest =>
      match quantityOfTree? value with
      | some quantity => go (bundle.insert name quantity) rest
      | none => .error (.notNumber name)

/-- The value that a JSON document says. JSON has no handles. -/
def ofTree : Tree Q → Except (OptionFault Q) (OptionValue Q)
  | .absent => .ok unset
  | .whole n => .ok (if fitsWord n then whole n else real (Quantity.ofInt n))
  | .real x => .ok (real x)
  | .text s => .ok (text s)
  | .table entries => (bundleOfEntries entries).map resources
  | other => .error (.unsupported other)

/-- The value that a JSON text says, if it is one. -/
def ofJson? {Q : Type} [WrittenQuantity Q] (s : String) :
    Option (Except (OptionFault Q) (OptionValue Q)) :=
  (Json.readValue? s).map ofTree

end OptionValue

end ActorPlacement
