set_option autoImplicit false
set_option relaxedAutoImplicit false

/-!
The help texts of the program and of its two commands.
-/

namespace Deposit.CommandLine

/-- Lines as a text, each with its end. -/
def lines (ls : List String) : String :=
  String.join (ls.map (· ++ "\n"))

def programHelp : String :=
  lines
    ["usage: deposit-services [-h] [-v] \x7bassemble,check-status\x7d ...",
     "",
     "Package submissions for deposit and check deposit status",
     "",
     "positional arguments:",
     "  \x7bassemble,check-status\x7d",
     "                        Available commands",
     "    assemble            Assemble a submission into a deposit package",
     "    check-status        Resolve the status of a deposit from its status",
     "                        document",
     "",
     "options:",
     "  -h, --help            show this help message and exit",
     "  -v, --verbose         Enable verbose output"]

def specificationList : String :=
  "\x7bhttp://purl.org/net/sword/package/METSDSpaceSIP," ++
    "http://purl.org/net/sword/package/SimpleZip,nihms-native-2017-07\x7d"

def assembleHelp : String :=
  lines
    ["usage: deposit-services assemble [-h] --submission SUBMISSION",
     "                                 [--specification " ++ specificationList ++ "]",
     "                                 [--archive \x7bnone,tar,zip\x7d]",
     "                                 [--compression \x7bnone,gzip,bzip2\x7d]",
     "                                 [--output OUTPUT]",
     "",
     "Package the files of a submission directory (described by its submission.json)",
     "according to a packaging specification.",
     "",
     "options:",
     "  -h, --help            show this help message and exit",
     "  --submission SUBMISSION",
     "                        Path to the submission directory containing",
     "                        submission.json",
     "  --specification " ++ specificationList,
     "                        Packaging specification (default:",
     "                        http://purl.org/net/sword/package/SimpleZip)",
     "  --archive \x7bnone,tar,zip\x7d",
     "                        Archive format (default: the specification's)",
     "  --compression \x7bnone,gzip,bzip2\x7d",
     "                        Compression (default: the specification's)",
     "  --output OUTPUT       Output directory for packages (default:",
     "                        workspace/packages)"]

def checkStatusHelp : String :=
  lines
    ["usage: deposit-services check-status [-h] --document DOCUMENT --repository",
     "                                     REPOSITORY --config CONFIG",
     "",
     "Parse a SWORD v2 Atom statement and map its deposit state using the",
     "repository's configured mapping.",
     "",
     "options:",
     "  -h, --help            show this help message and exit",
     "  --document DOCUMENT   URL or path of the status document",
     "  --repository REPOSITORY",
     "                        Name of the repository in the configuration",
     "  --config CONFIG       Path to the repository configuration JSON"]

end Deposit.CommandLine
