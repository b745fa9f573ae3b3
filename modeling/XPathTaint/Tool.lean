-- What the program calls itself in its output.

namespace XPathTaint.Tool

def name : String := "xpathguard"

def version : String := "0.1.0"

end XPathTaint.Tool
