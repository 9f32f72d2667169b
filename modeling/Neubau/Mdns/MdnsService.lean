import Mathlib.Data.Finmap
import Neubau.Common.Basic

/-! The record of one mDNS service instance. -/

namespace Neubau.Mdns

open Neubau.Common

/-- `std::map<std::string, std::string>`. -/
abbrev Txt := Finmap fun _ : Bytes => Bytes

structure MdnsService where
  serviceType : Bytes := []
  instanceName : Bytes := []
  hostname : Bytes := []
  port : UInt16 := 0
  priority : UInt16 := 0
  weight : UInt16 := 0
  addresses : List Bytes := []
  txt : Txt := ∅
  ttl : UInt32 := 0
  deriving DecidableEq

end Neubau.Mdns
