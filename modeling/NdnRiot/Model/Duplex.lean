import NdnRiot.Lib.Cable
import NdnRiot.Model.UdpNetwork

/-!
# Two devices on a cable

Each of two devices runs a thread as in `Model.System`, and what one of them sends reaches
the other one in order (`Lib.Cable`): frames between their first interfaces, or datagrams
between their UDP faces. These are the networks of `Model.Link` and `Model.UdpNetwork`
where they are neither shared nor lossy.
-/

namespace NdnRiot

/-- Two netfaces on a cable. -/
abbrev NetfaceNet := Cable.Net Thread (List UInt8) (List UInt8)

/-- Two UDP faces on a cable. -/
abbrev UdpPair := Cable.Net Thread Datagram (List UInt8)

end NdnRiot
