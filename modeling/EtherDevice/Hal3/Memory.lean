import Mathlib
import EtherDevice.Lib.Stock

/-!
# Memory of camera buffers

What `QCamera3HeapMemory` and `QCamera3GrallocMemory` share: the description of a buffer, and the
part of the kernel that they use. The kernel gives out descriptors, ion handles of a client and
mappings; a client is a descriptor of `/dev/ion`. The process has its standard streams and other
descriptors open, which the kernel does not choose either.
-/

namespace EtherDevice.Hal3.Memory

open Lib

/-- What the kernel gives out: a descriptor, an ion handle of a client, a mapping. -/
inductive Resource
  | descriptor (fd : Int)
  | handle (client : Int) (handle : Nat)
  | mapping (addr : Nat)
deriving DecidableEq

/-- How the kernel chooses: nothing that is in use, no handle 0 and no mapping at `NULL`. -/
structure Kernel where
  descriptor : List Resource → Nat
  handle : List Resource → Int → Nat
  address : List Resource → Nat
  descriptor_notMem : ∀ live, Resource.descriptor (descriptor live) ∉ live
  handle_notMem : ∀ live client, Resource.handle client (handle live client) ∉ live
  handle_ne_zero : ∀ live client, handle live client ≠ 0
  address_notMem : ∀ live, Resource.mapping (address live) ∉ live
  address_ne_zero : ∀ live, address live ≠ 0

def Resource.number : Resource → Nat
  | .descriptor fd => fd.toNat
  | .handle _ n => n
  | .mapping addr => addr

def nextNumber (live : List Resource) : Nat := (live.map Resource.number).sum + 1

theorem number_lt_next {live : List Resource} {r : Resource} (h : r ∈ live) :
    r.number < nextNumber live :=
  Nat.lt_succ_of_le (List.le_sum_of_mem (List.mem_map_of_mem h))

/-- A kernel that takes a number that is not in use. -/
def Kernel.next : Kernel where
  descriptor := nextNumber
  handle live _ := nextNumber live
  address := nextNumber
  descriptor_notMem live h := Nat.lt_irrefl (nextNumber live) (number_lt_next h)
  handle_notMem live _ h := Nat.lt_irrefl (nextNumber live) (number_lt_next h)
  handle_ne_zero _ _ := Nat.succ_ne_zero _
  address_notMem live h := Nat.lt_irrefl (nextNumber live) (number_lt_next h)
  address_ne_zero _ := Nat.succ_ne_zero _

abbrev Os := Stock Resource

def maxNumFrames : Nat := 64

def noMemory : Int := -12

def badIndex : Int := -75

def invalidOperation : Int := -38

def alreadyExists : Int := -17

def badValue : Int := -22

structure MemInfo where
  fd : Int := -1
  mainIonFd : Int := -1
  handle : Nat := 0
  size : Nat := 0
deriving DecidableEq

end EtherDevice.Hal3.Memory
