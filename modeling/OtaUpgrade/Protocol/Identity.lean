import OtaUpgrade.Text.Hex

/-!
Who the device is. A directly reachable peripheral tells it in eight little-endian bytes; for a
mesh node the mesh core may know it from the node's composition.
-/
namespace OtaUpgrade

/-- The value of the application-info channel. -/
structure AppInfo where
  vendorId : UInt16
  productId : UInt16
  version : UInt32
  deriving DecidableEq, Repr

namespace AppInfo

/-- The eight bytes of the value. -/
def encode (info : AppInfo) : Bytes :=
  littleEndian 2 info.vendorId.toNat ++ littleEndian 2 info.productId.toNat ++
    littleEndian 4 info.version.toNat

/-- Reads the value; any length but eight means that the peripheral has no application info. -/
def decode? : Bytes → Option AppInfo
  | [v0, v1, p0, p1, r0, r1, r2, r3] =>
    some
      { vendorId := UInt16.ofNat (ofLittleEndian [v0, v1])
        productId := UInt16.ofNat (ofLittleEndian [p0, p1])
        version := UInt32.ofNat (ofLittleEndian [r0, r1, r2, r3]) }
  | _ => none

end AppInfo

/-- What the mesh core knows of a node. -/
structure ComponentMetadata where
  companyId : UInt16
  productId : UInt16
  versionId : UInt16
  deriving DecidableEq, Repr

/-- A device's identity, by where it came from. -/
inductive Identity where
  | appInfo (info : AppInfo)
  | mesh (metadata : ComponentMetadata)
  deriving DecidableEq, Repr

/-- The identity as messages show it. -/
def Identity.text : Identity → String
  | appInfo info =>
    s!"vid={Hex.literal 4 info.vendorId.toNat} pid={Hex.literal 4 info.productId.toNat} " ++
      s!"ver={Hex.literal 8 info.version.toNat}"
  | mesh metadata =>
    s!"cid={Hex.literal 4 metadata.companyId.toNat} pid={Hex.literal 4 metadata.productId.toNat} " ++
      s!"vid={Hex.literal 4 metadata.versionId.toNat}"

end OtaUpgrade
