/-!
# What is wrong with a URL
-/
namespace BucketTransfer

inductive Url.Error where
  | noScheme
  | emptyHost
  | domain
  | hostCharacter
  | port
  | ipv4
  | ipv6
  deriving DecidableEq, Repr

def Url.Error.message : Url.Error → String
  | .noScheme => "relative URL without a base"
  | .emptyHost => "empty host"
  | .domain => "invalid international domain name"
  | .hostCharacter => "invalid domain character"
  | .port => "invalid port number"
  | .ipv4 => "invalid IPv4 address"
  | .ipv6 => "invalid IPv6 address"

end BucketTransfer
