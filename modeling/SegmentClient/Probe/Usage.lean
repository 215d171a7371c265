import SegmentClient.Probe.Arguments

namespace SegmentClient.Probe

def versionLine : String := "segwire 0.1.0"

def usageLine : String := "Usage: segwire-probe [OPTIONS] <NODE>"

def help : List String :=
  ["Connects to a segment store node and logs its replies",
    "",
    usageLine,
    "",
    "Arguments:",
    "  <NODE>  Segment store node, as host:port",
    "",
    "Options:",
    "      --wait <WAIT>                Seconds to keep listening for replies [default: 5]",
    "      --keep-alive                 Send a KeepAlive after the Hello",
    "      --tls                        Connect over TLS",
    "      --trust-store <TRUST_STORE>  PEM file with certificates to trust instead of the platform store",
    "      --no-validate-host-name      Accept a certificate issued for any host name",
    "  -h, --help                       Print help",
    "  -V, --version                    Print version"]

def Arguments.Fault.complaint : Arguments.Fault → List String
  | .helpWanted | .versionWanted => []
  | .missingNode => ["the following required arguments were not provided:", "  <NODE>"]
  | .repeated switch => [s!"the argument '{switch.shown}' cannot be used multiple times"]
  | .unknown argument => [s!"unexpected argument '{argument}' found"]
  | .missingValue switch =>
    [s!"a value is required for '{switch.shown}' but none was supplied"]
  | .unwantedValue switch value =>
    [s!"unexpected value '{value}' for '{switch.shown}' found; no more were expected"]
  | .badNode text fault => [s!"invalid value '{text}' for '<NODE>': {fault.message}"]
  | .badWait text fault => [s!"invalid value '{text}' for '{Switch.wait.shown}': {fault.message}"]

def Arguments.Fault.output : Arguments.Fault → List String
  | .helpWanted => help
  | .versionWanted => [versionLine]
  | _ => []

def Arguments.Fault.errors (fault : Arguments.Fault) : List String :=
  match fault.complaint with
  | [] => []
  | first :: rest =>
    let usage :=
      match fault with
      | .badNode _ _ | .badWait _ _ | .missingValue _ => []
      | .missingNode => ["", "Usage: segwire-probe <NODE>"]
      | _ => ["", usageLine]
    ("error: " ++ first) :: rest ++ usage ++ ["", "For more information, try '--help'."]

end SegmentClient.Probe
