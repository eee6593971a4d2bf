import Mathlib.Data.Int.Basic

/-! The error codes of `fi_errno.h` that the modelled functions return. A
libfabric call returns `0` (`FI_SUCCESS`) or `-FI_E...`; every `FI_E...` is the
Linux `errno` of the same name. -/
namespace Libfabric

def fiEnoent : Int := 2

def fiEio : Int := 5

/-- `EAGAIN` (Linux). -/
def eagain : Int := 11

/-- `EWOULDBLOCK`, the same code as `EAGAIN` on Linux. -/
def ewouldblock : Int := eagain

def fiEagain : Int := eagain

/-- `EINVAL` (Linux). -/
def einval : Int := 22

def fiEacces : Int := 13

def fiEnomem : Int := 12

def fiEbusy : Int := 16

def fiEinval : Int := 22

def fiEtoosmall : Int := 257

def fiEtrunc : Int := 265

def fiEnosys : Int := 38

end Libfabric
