import NameHunt.Error
import NameHunt.Text.LowerCase
import NameHunt.Text.Split

/-!
# Registries

Every top-level domain has a registry that is asked about its names. Top-level domains without an
address of their own are asked about at a common one.

* `Registry.address`: the address of a top-level domain.
* `Registry.topLevel`: the top-level domain of a domain.
* `Registry.url`: where a domain is looked up.
-/

namespace NameHunt.Registry

/-- The address that forwards to all registries. -/
def common : String := "https://rdap.org/domain/"

/-- The registries with an address of their own. -/
def addresses : List (String × String) :=
  [ ("com", "https://rdap.verisign.com/com/v1/domain/"),
    ("net", "https://rdap.verisign.com/net/v1/domain/"),
    ("org", "https://rdap.publicinterestregistry.org/rdap/domain/"),
    ("info", "https://rdap.identitydigital.services/rdap/domain/"),
    ("biz", "https://rdap.nic.biz/domain/"),
    ("app", "https://pubapi.registry.google/rdap/domain/"),
    ("dev", "https://pubapi.registry.google/rdap/domain/"),
    ("page", "https://pubapi.registry.google/rdap/domain/"),
    ("xyz", "https://rdap.centralnic.com/xyz/domain/"),
    ("tech", "https://rdap.centralnic.com/tech/domain/"),
    ("online", "https://rdap.centralnic.com/online/domain/"),
    ("site", "https://rdap.centralnic.com/site/domain/"),
    ("shop", "https://rdap.gmoregistry.net/rdap/domain/"),
    ("ai", "https://rdap.identitydigital.services/rdap/domain/"),
    ("io", "https://rdap.identitydigital.services/rdap/domain/"),
    ("me", "https://rdap.identitydigital.services/rdap/domain/"),
    ("us", "https://rdap.nic.us/domain/"),
    ("uk", "https://rdap.nominet.uk/domain/"),
    ("de", "https://rdap.denic.de/domain/"),
    ("fr", "https://rdap.nic.fr/domain/"),
    ("nl", "https://rdap.sidn.nl/domain/"),
    ("tv", "https://rdap.nic.tv/domain/"),
    ("cc", "https://tld-rdap.verisign.com/cc/v1/domain/") ]

/-- The address of a top-level domain. The case of ASCII letters does not count. -/
def address (topLevel : String) : String :=
  (addresses.lookup (String.ofList (topLevel.toList.map Char.toLower))).getD common

/-- What stands after the last dot of a domain, in small letters. Something has to stand on both
sides of the dot. -/
def topLevel (domain : String) : Except Error String :=
  match Text.cutAtLast '.' domain.toList with
  | some (_ :: _, last@(_ :: _)) => .ok (String.ofList (Text.lower last))
  | _ => .error (.internal ("'" ++ domain ++ "' is not a fully qualified domain"))

/-- Where a domain is looked up. -/
def url (domain : String) : Except Error String := do
  return address (← topLevel domain) ++ domain

end NameHunt.Registry
