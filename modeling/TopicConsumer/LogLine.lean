namespace TopicConsumer

def warnLine (text : String) : String := "WARN " ++ text

def errorLine (text : String) : String := "ERROR " ++ text

def sortedLines (lines : List String) : List String := lines.mergeSort fun a b => !decide (b < a)

end TopicConsumer
