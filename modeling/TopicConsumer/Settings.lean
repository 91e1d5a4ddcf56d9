import TopicConsumer.Table

namespace TopicConsumer

abbrev Settings := Table String String

namespace Settings

def statisticsKey : String := "statistics.interval.ms"

/-- Asks the client for statistics once a second, unless the settings say how often. -/
def withStatistics (settings : Settings) : Settings :=
  if (settings.get? statisticsKey).isSome then settings else Table.set statisticsKey "1000" settings

end Settings

end TopicConsumer
