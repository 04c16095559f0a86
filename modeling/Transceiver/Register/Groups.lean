import Transceiver.Word

/-!
# Register groups

The documented registers, by function. A dump reads them in this order.
-/

namespace Transceiver.Register

/-- Registers that serve one function. -/
structure Group where
  name : String
  addresses : List Address
deriving Repr

namespace Group

/-- Every group. -/
def all : List Group := [
  ⟨"Top level configuration",
    [0x00, 0x01, 0x02, 0x03, 0x04, 0x05, 0x06, 0x07, 0x08, 0x09, 0x0a, 0x0b, 0x0e, 0x0f]⟩,
  ⟨"TX PLL configuration",
    [0x10, 0x11, 0x12, 0x13, 0x14, 0x15, 0x16, 0x17, 0x18, 0x19, 0x1a, 0x1b, 0x1c, 0x1d, 0x1e,
      0x1f]⟩,
  ⟨"RX PLL configuration",
    [0x20, 0x21, 0x22, 0x23, 0x24, 0x25, 0x26, 0x27, 0x28, 0x29, 0x2a, 0x2b, 0x2c, 0x2d, 0x2e,
      0x2f]⟩,
  ⟨"TX LPF modules configuration", [0x30, 0x31, 0x32, 0x33, 0x34, 0x35, 0x36]⟩,
  ⟨"TX RF modules configuration",
    [0x40, 0x41, 0x42, 0x43, 0x44, 0x45, 0x46, 0x47, 0x48, 0x49, 0x4a, 0x4b, 0x4c, 0x4d, 0x4e,
      0x4f]⟩,
  ⟨"RX LPF, ADC and DAC modules configuration",
    [0x50, 0x51, 0x52, 0x53, 0x54, 0x55, 0x56, 0x57, 0x58, 0x59, 0x5a, 0x5b, 0x5c, 0x5d, 0x5e,
      0x5f]⟩,
  ⟨"RXVGA2 configuration", [0x60, 0x61, 0x62, 0x63, 0x64, 0x65, 0x66, 0x67, 0x68]⟩,
  ⟨"RX FE modules configuration",
    [0x70, 0x71, 0x72, 0x73, 0x74, 0x75, 0x76, 0x77, 0x78, 0x79, 0x7a, 0x7b, 0x7c]⟩]

end Group

/-- Every documented register with the name of its group, in the order of a dump. -/
def documented : List (String × Address) :=
  Group.all.flatMap fun g => g.addresses.map fun address => (g.name, address)

end Transceiver.Register
